set_option autoImplicit false

namespace Stencil.Text

def order : List Char → List Char → Ordering
  | [], [] => .eq
  | [], _ :: _ => .lt
  | _ :: _, [] => .gt
  | c :: cs, d :: ds => (compare c.toNat d.toNat).then (order cs ds)

theorem order_eq_eq_iff (cs ds : List Char) : order cs ds = .eq ↔ cs = ds := by
  induction cs generalizing ds with
  | nil => cases ds <;> simp [order]
  | cons c cs ih =>
    cases ds with
    | nil => simp [order]
    | cons d ds =>
      simp only [order, Ordering.then_eq_eq, Nat.compare_eq_eq, ih, List.cons.injEq]
      exact and_congr_left fun _ => ⟨fun h => Char.ext (UInt32.toNat_inj.1 h), fun h => by rw [h]⟩

def occursIn (part : List Char) : List Char → Bool
  | [] => part = []
  | c :: cs => part.isPrefixOf (c :: cs) || occursIn part cs

def sorted (texts : List String) : List String :=
  texts.mergeSort fun s t => order s.toList t.toList ≠ .gt

end Stencil.Text
