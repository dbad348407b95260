import Stencil.Proofs.Eval.Comparisons
import Stencil.Proofs.Number.Exactness
import Stencil.Proofs.Number.Numerals
import Stencil.Proofs.Value.Forms
set_option autoImplicit false

namespace Stencil

namespace Value

theorem ofBinary64_of_isWhole {b : Binary64} {n : ℤ} (h : b.IsWhole n) (hn : n.natAbs < 2 ^ 63)
    (origin : Origin) : ofBinary64 origin b = .ok (number (.int n)) := by
  obtain ⟨x, rfl, hx⟩ := h
  exact ofBinary64_of_value hx hn origin

theorem ofBinary64_of_not_isFinite {b : Binary64} (h : b.isFinite = false) (origin : Origin) :
    ofBinary64 origin b = .error (.nonFinite origin) := by
  rw [ofBinary64, (Number.ofBinary64?_eq_none_iff b).2 h]

end Value

namespace Expr

variable {st : Setting} {scope : Scope} {x y : Expr}

/-- The expression has this integer as its value, held as an integer. It is printed with decimal digits that
denote it, none of them to spare. -/
structure ComesTo (st : Setting) (scope : Scope) (e : Expr) (n : ℤ) : Prop where
  value : e.eval st scope = .ok (.number (.int n))
  print : ∃ t : Numeral, (Value.number (.int n)).print = .ok t.text ∧ t.Canonical ∧
    t.fraction = [] ∧ t.value = n

theorem comesTo_of_value {e : Expr} {n : ℤ} (h : e.eval st scope = .ok (.number (.int n))) :
    ComesTo st scope e n := by
  have hwrites : (Number.wholeNumeral n).Writes (.int n) := Number.wholeNumeral_writes rfl rfl
  have hwhole : ∃ k : ℤ, (Number.int n).value = k := ⟨n, rfl⟩
  refine ⟨h, _, hwrites.print, hwrites.canonical, ?_, Number.value_wholeNumeral n⟩
  by_contra hfraction
  exact hwrites.fraction.1 hfraction hwhole

/-- Two expressions of whole numbers up to `2 ^ 53` in size, each held as an integer or as a float. A sum, a
difference and a product are exact where they are no larger. A remainder is the one of the quotient cut to an
integer, so it has the sign of the dividend. A quotient is exact where there is one. Nothing can be divided
by zero, of either sign. -/
theorem small_integers_exact {m n : Number} {a b : ℤ} (hx : x.eval st scope = .ok (.number m))
    (hy : y.eval st scope = .ok (.number n)) (hm : m.value = a) (hn : n.value = b)
    (ha : a.natAbs ≤ 2 ^ 53) (hb : b.natAbs ≤ 2 ^ 53) :
    ((a + b).natAbs ≤ 2 ^ 53 → ComesTo st scope (binary .add x y) (a + b)) ∧
    ((a - b).natAbs ≤ 2 ^ 53 → ComesTo st scope (binary .sub x y) (a - b)) ∧
    ((a * b).natAbs ≤ 2 ^ 53 → ComesTo st scope (binary .mul x y) (a * b)) ∧
    (b ≠ 0 → ComesTo st scope (binary .rem x y) (a.tmod b)) ∧
    (∀ q, b ≠ 0 → a = b * q → ComesTo st scope (binary .div x y) q) ∧
    (b = 0 → (binary .div x y).eval st scope = .error (.nonFinite (.binary .div)) ∧
      (binary .rem x y).eval st scope = .error (.nonFinite (.binary .rem))) := by
  have hmwhole := Number.isWhole_toBinary64 hm ha
  have hnwhole := Number.isWhole_toBinary64 hn hb
  have hcomes {op : BinaryOp} {f : Binary64} {k : ℤ}
      (hop : (Value.number m).binary op (.number n) = Value.ofBinary64 (.binary op) f)
      (hf : f.IsWhole k) (hk : k.natAbs ≤ 2 ^ 53) : ComesTo st scope (binary op x y) k := by
    refine comesTo_of_value ?_
    rw [eval_binary hx hy, hop]
    exact Value.ofBinary64_of_isWhole hf (by omega) _
  refine ⟨fun h => ?_, fun h => ?_, fun h => ?_, fun hzero => ?_, ?_, ?_⟩
  · exact hcomes rfl (hmwhole.add hnwhole h) h
  · exact hcomes rfl (hmwhole.sub hnwhole h) h
  · exact hcomes rfl (hmwhole.mul hnwhole h) h
  · have hsize : (a.tmod b).natAbs ≤ 2 ^ 53 := by
      rw [Int.natAbs_tmod]
      exact (Nat.mod_le _ _).trans ha
    exact hcomes rfl (hmwhole.rem hnwhole hzero hsize) hsize
  · intro q hzero hq
    have hsize : q.natAbs ≤ 2 ^ 53 := by
      rw [hq, Int.natAbs_mul] at ha
      exact (Nat.le_mul_of_pos_left _ (Int.natAbs_pos.2 hzero)).trans ha
    exact hcomes rfl (hmwhole.div hnwhole hzero hq hsize) hsize
  · rintro rfl
    have hfinite : m.toBinary64.isFinite := by
      obtain ⟨f, hf, -⟩ := hmwhole
      rw [hf]
      rfl
    obtain ⟨hdiv, hrem⟩ := Binary64.not_isFinite_of_zero hfinite hnwhole
    rw [eval_binary hx hy, eval_binary hx hy]
    exact ⟨Value.ofBinary64_of_not_isFinite hdiv _, Value.ofBinary64_of_not_isFinite hrem _⟩

theorem least_exact_float :
    let st : Setting := ⟨Functions.standard, .strict⟩
    let x : Binary64.Finite := ⟨true, 4503599627370496, 1075, by decide⟩
    let scope := Scope.ofContext
      [("x", .number (.float x)), ("y", .number (.int (-3))), ("z", .number (.float (.zero true)))]
    x.value = ((-2 ^ 53 : ℤ) : ℚ) ∧
    ComesTo st scope (binary .sub (.ident "x") (.ident "y")) (-9007199254740989) ∧
    ComesTo st scope (binary .rem (.ident "x") (.ident "y")) (-2) ∧
    ComesTo st scope (binary .div (.ident "x") (.ident "x")) 1 ∧
    ComesTo st scope (binary .mul (.ident "y") (.ident "z")) 0 ∧
    (binary .div (.ident "x") (.ident "z")).eval st scope = .error (.nonFinite (.binary .div)) := by
  intro st x scope
  have hx : x.value = ((-2 ^ 53 : ℤ) : ℚ) := by
    rw [Binary64.Finite.value_eq_intCast_iff]
    decide +kernel
  have hz : (Binary64.Finite.zero true).value = ((0 : ℤ) : ℚ) := by
    rw [Binary64.Finite.value_eq_intCast_iff]
    decide +kernel
  have hlarge : (-2 ^ 53 : ℤ).natAbs ≤ 2 ^ 53 := by decide
  have hsmall : (-3 : ℤ).natAbs ≤ 2 ^ 53 := by decide
  have hzero : (0 : ℤ).natAbs ≤ 2 ^ 53 := by decide
  have hxeval : (ident "x").eval st scope = .ok (.number (.float x)) := rfl
  have hyeval : (ident "y").eval st scope = .ok (.number (.int (-3))) := rfl
  have hzeval : (ident "z").eval st scope = .ok (.number (.float (.zero true))) := rfl
  have hxy := small_integers_exact hxeval hyeval hx rfl hlarge hsmall
  have hxx := small_integers_exact hxeval hxeval hx hx hlarge hlarge
  have hyz := small_integers_exact hyeval hzeval rfl hz hsmall hzero
  have hxz := small_integers_exact hxeval hzeval hx hz hlarge hzero
  exact ⟨hx, hxy.2.1 (by decide), hxy.2.2.2.1 (by decide), hxx.2.2.2.2.1 1 (by decide) (by decide),
    hyz.2.2.1 (by decide), (hxz.2.2.2.2.2 rfl).1⟩

end Expr

end Stencil
