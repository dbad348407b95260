import Mathlib.Algebra.Group.Nat.Defs
import Mathlib.Algebra.Order.Group.Int
import Stencil.Proofs.Eval.Operands
import Stencil.Proofs.Number.Integers
set_option autoImplicit false

namespace Stencil

/-- The relation of integers that an operator stands for, if it compares. -/
def BinaryOp.relation? : BinaryOp → Option (Int → Int → Bool)
  | .eq | .strictEq => some fun a b => a = b
  | .notEq | .strictNotEq => some fun a b => a ≠ b
  | .less => some fun a b => a < b
  | .lessOrEqual => some fun a b => a ≤ b
  | .greater => some fun a b => b < a
  | .greaterOrEqual => some fun a b => b ≤ a
  | _ => none

theorem Value.ordered_of_some {v w : Value} {o : Ordering} (h : v.compare? w = some o) (op : BinaryOp)
    (test : Ordering → Bool) : ordered op test v w = .ok (.bool (test o)) := by
  rw [ordered, h]

/-- Two different integers with the same nearest binary64 number. -/
def Binary64.Merged (a b : Int) : Prop := a ≠ b ∧ ofInt a = ofInt b

instance (a b : Int) : Decidable (Binary64.Merged a b) := inferInstanceAs (Decidable (_ ∧ _))

namespace Expr

variable {st : Setting} {scope : Scope} {x y : Expr}

/-- All comparisons of the two expressions, and a search for the second one, have the answers that are right
for these two integers. -/
def ComparesAs (st : Setting) (scope : Scope) (x y : Expr) (a b : Int) : Prop :=
  (∀ op r, BinaryOp.relation? op = some r →
    (binary op x y).eval st scope = .ok (.bool (r a b))) ∧
  (call "contains" [.array [x], y]).eval st scope = .ok (.bool (a = b))

section

variable {m n : Number} (hst : st.functions.HasBuiltins)
  (hx : x.eval st scope = .ok (.number m)) (hy : y.eval st scope = .ok (.number n))

include hst hx hy

theorem comparesAs_of_compare? {a b : Int} (h : m.compare? n = some (compare a b)) :
    ComparesAs st scope x y a b := by
  have hequal : (Value.number m).equal (.number n) = decide (a = b) := by
    have hsame : (Value.number m).equal (.number n) = decide (m.compare? n = some .eq) := by
      rw [Value.equal]
      rfl
    rw [hsame, h]
    exact decide_eq_decide.2 (by rw [Option.some.injEq, Int.compare_eq_eq])
  have hordered {op : BinaryOp} {test : Ordering → Bool} {p : Prop} [Decidable p]
      (htest : test (compare a b) ↔ p) :
      Value.ordered op test (.number m) (.number n) = .ok (.bool p) := by
    have hvalues : (Value.number m).compare? (.number n) = some (compare a b) := h
    have hanswer : test (compare a b) = decide p :=
      Bool.eq_iff_iff.2 (htest.trans decide_eq_true_iff.symm)
    rw [Value.ordered_of_some hvalues, ← hanswer]
  refine ⟨fun op r hr => ?_, ?_⟩
  · rw [eval_binary hx hy]
    cases op with
    | eq | strictEq =>
      cases hr
      rw [Value.binary, hequal]
    | notEq | strictNotEq =>
      cases hr
      rw [Value.binary, hequal]
      simp
    | less =>
      cases hr
      exact hordered (Ordering.isLT_iff_eq_lt.trans Int.compare_eq_lt)
    | lessOrEqual =>
      cases hr
      exact hordered Int.isLE_compare
    | greater =>
      cases hr
      exact hordered (Ordering.isGT_iff_eq_gt.trans Int.compare_eq_gt)
    | greaterOrEqual =>
      cases hr
      exact hordered Int.isGE_compare
    | _ => cases hr
  · have hargs : List.Forall₂ (fun e v => e.eval st scope = .ok v) [.array [x], y]
        [.array [.number m], .number n] :=
      .cons (by simp [eval, evalItems, hx]; rfl) (.cons hy .nil)
    have hcontains : Functions.contains [.array [.number m], .number n] =
        .ok (.bool ((Value.number m).equal (.number n) || false)) := rfl
    rw [eval_builtin_of_ok hargs hst rfl hcontains, hequal, Bool.or_false]

end

/-- Every comparison of two integers of 64 bits, and a search for the second one in an array of the first,
has the answer that is right for the integers, exactly if they are not two different ones with the same
nearest binary64 number. Those are taken for equal by all comparisons; both are at least `2 ^ 53` in size
and no more than `2 ^ 11` apart. -/
theorem comparesAs_iff {a b : Int} (hst : st.functions.HasBuiltins)
    (hx : x.eval st scope = .ok (.number (.int a))) (hy : y.eval st scope = .ok (.number (.int b)))
    (ha : Number.FitsWord a) (hb : Number.FitsWord b) :
    (ComparesAs st scope x y a b ↔ ¬ Binary64.Merged a b) ∧
    (Binary64.Merged a b → ComparesAs st scope x y a a ∧
      2 ^ 53 ≤ a.natAbs ∧ 2 ^ 53 ≤ b.natAbs ∧ (a - b).natAbs ≤ 2 ^ 11) := by
  have horder := Number.compare?_int ha hb
  have hequal (h : Binary64.Merged a b) : ComparesAs st scope x y a a := by
    refine comparesAs_of_compare? hst hx hy ?_
    rw [horder, if_pos h.2, Int.compare_eq_eq.2 rfl]
  refine ⟨⟨fun h hmerged => ?_, fun h => ?_⟩, fun hmerged => ⟨hequal hmerged, ?_⟩⟩
  · have htrue := (hequal hmerged).2
    rw [h.2] at htrue
    simp [hmerged.1] at htrue
  · refine comparesAs_of_compare? hst hx hy ?_
    rw [horder]
    split
    · next hsame =>
      have hab : a = b := not_not.1 fun hne => h ⟨hne, hsame⟩
      rw [Int.compare_eq_eq.2 hab]
    · rfl
  · obtain ⟨hne, hsame⟩ := hmerged
    have hunits := (Binary64.ofInt_eq_iff ha hb).1 hsame
    refine ⟨?_, ?_, Binary64.natAbs_sub_le_of_nearestUnits_eq ha hb hunits⟩
    · exact not_lt.1 fun hlt => Binary64.nearestUnits_ne hlt hne hunits
    · exact not_lt.1 fun hlt => Binary64.nearestUnits_ne hlt hne.symm hunits.symm

theorem neighbours_compared :
    let st : Setting := ⟨Functions.standard, .strict⟩
    let scope := Scope.ofContext [("a", .number (.int 9007199254740995)),
      ("b", .number (.int 9007199254740994)), ("c", .number (.int 18446744073709551615)),
      ("d", .number (.int 18446744073709551614))]
    (binary .greater (.ident "a") (.ident "b")).eval st scope = .ok (.bool true) ∧
    (call "contains" [.array [.ident "a"], .ident "b"]).eval st scope = .ok (.bool false) ∧
    (binary .greater (.ident "c") (.ident "d")).eval st scope = .ok (.bool false) ∧
    (binary .strictEq (.ident "c") (.ident "d")).eval st scope = .ok (.bool true) := by
  intro st scope
  have hst : st.functions.HasBuiltins := fun _ _ h => h
  have ha : (ident "a").eval st scope = .ok (.number (.int 9007199254740995)) := rfl
  have hb : (ident "b").eval st scope = .ok (.number (.int 9007199254740994)) := rfl
  have hc : (ident "c").eval st scope = .ok (.number (.int 18446744073709551615)) := rfl
  have hd : (ident "d").eval st scope = .ok (.number (.int 18446744073709551614)) := rfl
  have hapart := (comparesAs_iff hst ha hb (by decide) (by decide)).1.2 (by decide +kernel)
  have hmerged := ((comparesAs_iff hst hc hd (by decide) (by decide)).2 (by decide +kernel)).1
  exact ⟨hapart.1 .greater _ rfl, hapart.2, hmerged.1 .greater _ rfl, hmerged.1 .strictEq _ rfl⟩

/-- The two integers behind `2 ^ 53 - 1` are taken for equal. -/
theorem different_integers_equal :
    let st : Setting := ⟨Functions.standard, .strict⟩
    let scope := Scope.ofContext [("a", .number (.int 9007199254740992)),
      ("b", .number (.int 9007199254740993))]
    Number.FitsWord 9007199254740992 ∧ Number.FitsWord 9007199254740993 ∧
    (binary .eq (.ident "a") (.ident "b")).eval st scope = .ok (.bool true) ∧
    (binary .less (.ident "a") (.ident "b")).eval st scope = .ok (.bool false) ∧
    ¬ ComparesAs st scope (.ident "a") (.ident "b") 9007199254740992 9007199254740993 := by
  intro st scope
  have horder : (Number.int 9007199254740992).compare? (.int 9007199254740993) = some (compare 0 0) := by
    decide +kernel
  have hequal : ComparesAs st scope (.ident "a") (.ident "b") 0 0 :=
    comparesAs_of_compare? (fun _ _ h => h) rfl rfl horder
  have htrue := hequal.1 .eq _ rfl
  refine ⟨by decide, by decide, htrue, hequal.1 .less _ rfl, fun h => ?_⟩
  have hfalse := h.1 .eq _ rfl
  rw [htrue] at hfalse
  simp at hfalse

end Expr

end Stencil
