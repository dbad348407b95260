import Stencil.Proofs.Value.Equality
set_option autoImplicit false

namespace Stencil

theorem Text.order_eq_compareLex (cs ds : List Char) :
    order cs ds = List.compareLex (compareOn Char.toNat) cs ds := by
  induction cs generalizing ds with
  | nil => cases ds <;> rfl
  | cons c cs ih =>
    cases ds with
    | nil => rfl
    | cons d ds =>
      rw [order, ih, List.compareLex_cons_cons]
      rfl

namespace Binary64

/-- Infinities first of all; the units matter between finite numbers. -/
def comparePlaces : Int × Int → Int × Int → Ordering :=
  compareLex (compareOn Prod.fst) (compareOn Prod.snd)

instance : Std.TransCmp comparePlaces := inferInstanceAs (Std.TransCmp (compareLex _ _))

theorem compare?_of_place {x y : Binary64} {p q : Int × Int} (hx : x.place? = some p)
    (hy : y.place? = some q) : x.compare? y = some (comparePlaces p q) := by
  cases x with
  | nan => cases hx
  | infinite a =>
    cases hx
    cases y with
    | nan => cases hy
    | infinite b => cases hy; cases a <;> cases b <;> rfl
    | finite y => cases hy; cases a <;> rfl
  | finite x =>
    cases hx
    cases y with
    | nan => cases hy
    | infinite b => cases hy; cases b <;> rfl
    | finite y =>
      cases hy
      simp [compare?, comparePlaces, compareLex, compareOn]

end Binary64

theorem Number.exists_compare? (m n : Number) : ∃ o, m.compare? n = some o := by
  obtain ⟨p, hp⟩ := m.exists_place
  obtain ⟨q, hq⟩ := n.exists_place
  exact ⟨_, Binary64.compare?_of_place hp hq⟩

namespace Value

variable {v w u : Value}

def Ordered (v w : Value) : Prop := v.kind = w.kind ∧ (v.kind = .number ∨ v.kind = .string)

theorem ordered_iff : v.Ordered w ↔
    (∃ m n, v = number m ∧ w = number n) ∨ ∃ s t, v = string s ∧ w = string t := by
  cases v <;> cases w <;> simp [Ordered, kind]

theorem compare?_isSome_iff : (v.compare? w).isSome ↔ v.Ordered w := by
  rw [ordered_iff]
  constructor
  · intro h
    cases v <;> cases w <;> simp [compare?] at h ⊢
  · rintro (⟨m, n, rfl, rfl⟩ | ⟨s, t, rfl, rfl⟩)
    · obtain ⟨o, ho⟩ := m.exists_compare? n
      simp [compare?, ho]
    · simp [compare?]

theorem equal_eq_compare? (h : v.Ordered w) : v.equal w = decide (v.compare? w = some .eq) := by
  obtain ⟨m, n, rfl, rfl⟩ | ⟨s, t, rfl, rfl⟩ := ordered_iff.1 h
  · rw [equal]
    rfl
  · simp [equal, compare?, Text.order_eq_eq_iff, String.toList_inj]

theorem compare?_trans (h : v.compare? w = some .lt) (h' : w.compare? u = some .lt) :
    v.compare? u = some .lt := by
  have hvw : v.Ordered w := compare?_isSome_iff.1 (by rw [h]; rfl)
  have hwu : w.Ordered u := compare?_isSome_iff.1 (by rw [h']; rfl)
  obtain ⟨l, m, rfl, rfl⟩ | ⟨s, t, rfl, rfl⟩ := ordered_iff.1 hvw
  · obtain ⟨_, n, hm, rfl⟩ | ⟨_, _, hm, -⟩ := ordered_iff.1 hwu
    · obtain ⟨p, hp⟩ := l.exists_place
      obtain ⟨q, hq⟩ := m.exists_place
      obtain ⟨r, hr⟩ := n.exists_place
      cases hm
      simp only [compare?, Number.compare?, Binary64.compare?_of_place hp hq,
        Binary64.compare?_of_place hq hr, Binary64.compare?_of_place hp hr, Option.some.injEq] at h h' ⊢
      exact Std.TransCmp.lt_trans h h'
    · cases hm
  · obtain ⟨_, _, ht, -⟩ | ⟨_, r, ht, rfl⟩ := ordered_iff.1 hwu
    · cases ht
    · cases ht
      simp only [compare?, Option.some.injEq, Text.order_eq_compareLex] at h h' ⊢
      exact Std.TransCmp.lt_trans h h'

/-- Equal values are compared alike, and those that are not ordered are not ordered with anything. -/
theorem compare?_congr (h : v.equal w) (u : Value) :
    v.compare? u = w.compare? u ∧ u.compare? v = u.compare? w := by
  cases v with
  | null => rw [null_equal.1 h]; exact ⟨rfl, rfl⟩
  | bool b => rw [bool_equal.1 h]; exact ⟨rfl, rfl⟩
  | string s => rw [string_equal.1 h]; exact ⟨rfl, rfl⟩
  | array xs =>
    obtain ⟨ys, rfl, -⟩ := array_equal.1 h
    cases u <;> exact ⟨rfl, rfl⟩
  | object fs =>
    obtain ⟨gs, rfl, -⟩ := object_equal.1 h
    cases u <;> exact ⟨rfl, rfl⟩
  | number m =>
    obtain ⟨n, rfl, p, hm, hn⟩ := number_equal.1 h
    cases u with
    | number l =>
      obtain ⟨q, hq⟩ := l.exists_place
      simp only [compare?, Number.compare?, Binary64.compare?_of_place hm hq,
        Binary64.compare?_of_place hn hq, Binary64.compare?_of_place hq hm,
        Binary64.compare?_of_place hq hn, and_self]
    | _ => exact ⟨rfl, rfl⟩

theorem kind_eq_of_equal (h : v.equal w) : v.kind = w.kind := by
  cases v <;> cases w <;> simp [equal] at h <;> rfl

end Value

end Stencil
