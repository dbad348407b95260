import Mathlib.Algebra.Order.Field.Rat
import Mathlib.Tactic.FieldSimp
import Stencil.Proofs.Number.Integers
set_option autoImplicit false

namespace Stencil

-- A comparison of two terms that stay as they are would compute the power.
attribute [local irreducible] Binary64.unitsPerOne

namespace Binary64.Finite

variable {x : Finite} {n : ℤ}

def value (x : Finite) : ℚ := x.units / unitsPerOne

theorem value_eq_intCast_iff : x.value = n ↔ x.units = n * unitsPerOne := by
  have hone : (unitsPerOne : ℚ) ≠ 0 := by exact_mod_cast unitsPerOne_pos.ne'
  rw [value, div_eq_iff hone]
  exact_mod_cast Iff.rfl

theorem natAbs_units (x : Finite) : x.units.natAbs = x.magnitude := by
  unfold units
  split <;> omega

theorem negative_of_units_neg (h : x.units < 0) : x.negative = true := by
  by_contra hpositive
  rw [units, if_neg hpositive] at h
  omega

theorem magnitude_of_value (h : x.value = n) : x.magnitude = n.natAbs * unitsPerOne := by
  rw [← natAbs_units, value_eq_intCast_iff.1 h, Int.natAbs_mul, Int.natAbs_natCast]

theorem truncate_of_value (h : x.value = n) : x.truncate = n := by
  have hunits := value_eq_intCast_iff.1 h
  have hmagnitude := magnitude_of_value h
  have hquotient : x.magnitude / unitsPerOne = n.natAbs := by
    rw [hmagnitude, Nat.mul_div_cancel _ unitsPerOne_pos]
  have hone : (unitsPerOne : ℤ) ≠ 0 := by exact_mod_cast unitsPerOne_pos.ne'
  rw [truncate, hquotient]
  refine mul_right_cancel₀ hone ?_
  rw [← hunits, units, hmagnitude]
  split <;> simp

theorem isIntegral_iff : x.isIntegral ↔ ∃ n : ℤ, x.value = n := by
  have hdvd : x.isIntegral ↔ (unitsPerOne : ℤ) ∣ x.units := by
    rw [Int.natCast_dvd, natAbs_units, Nat.dvd_iff_mod_eq_zero, isIntegral, decide_eq_true_iff]
  simp only [hdvd, value_eq_intCast_iff]
  exact exists_congr fun n => by rw [mul_comm]

theorem isWord_iff : x.isWord ↔ ∃ n : ℤ, x.value = n ∧ n.natAbs < 2 ^ 63 := by
  have hbelow {n : ℤ} (h : x.value = n) :
      x.magnitude < 2 ^ 63 * unitsPerOne ↔ n.natAbs < 2 ^ 63 := by
    rw [magnitude_of_value h, Nat.mul_lt_mul_right unitsPerOne_pos]
  rw [isWord, Bool.and_eq_true, isIntegral_iff, decide_eq_true_iff]
  constructor
  · rintro ⟨⟨n, h⟩, hlt⟩
    exact ⟨n, h, (hbelow h).1 hlt⟩
  · rintro ⟨n, h, hlt⟩
    exact ⟨⟨n, h⟩, (hbelow h).2 hlt⟩

theorem nearestUnits_of_value (h : x.value = n) : nearestUnits n = x.units := by
  have hnearest : nearest (n.natAbs * unitsPerOne) = n.natAbs * unitsPerOne := by
    rw [← magnitude_of_value h, nearest_magnitude]
  rw [nearestUnits, hnearest, ← mul_eq_ite_natAbs, value_eq_intCast_iff.1 h]

theorem ofInt_of_value (hn : Number.FitsWord n) (h : x.value = n) :
    ∃ y : Finite, ofInt n = .finite y ∧ y.value = n := by
  obtain ⟨y, hy, -, hunits⟩ := ofInt_of_fitsWord hn
  refine ⟨y, hy, ?_⟩
  rw [value, hunits, nearestUnits_of_value h, ← value, h]

end Binary64.Finite

namespace Number

open Binary64

def value : Number → ℚ
  | .int n => n
  | .float x => x.value

/-- A whole result below `2 ^ 63` in size is held as an integer, whatever its form was. -/
theorem ofBinary64?_whole {x : Binary64.Finite} {n : ℤ} (h : x.value = n) (hn : n.natAbs < 2 ^ 63) :
    ofBinary64? (.finite x) = some (.int n) := by
  rw [ofBinary64?, if_pos (Finite.isWord_iff.2 ⟨n, h, hn⟩), Finite.truncate_of_value h]

theorem ofBinary64?_eq_some {b : Binary64} {m : Number} (h : ofBinary64? b = some m) :
    (∃ n : ℤ, m = .int n ∧ n.natAbs < 2 ^ 63) ∨
      ∃ x, m = .float x ∧ ∀ n : ℤ, x.value = n → 2 ^ 63 ≤ n.natAbs := by
  cases b with
  | nan => cases h
  | infinite s => cases h
  | finite x =>
    by_cases hword : x.isWord
    · obtain ⟨n, hvalue, hn⟩ := Finite.isWord_iff.1 hword
      rw [ofBinary64?_whole hvalue hn] at h
      exact .inl ⟨n, (Option.some.inj h).symm, hn⟩
    · rw [ofBinary64?, if_neg hword] at h
      refine .inr ⟨x, (Option.some.inj h).symm, fun n hvalue => ?_⟩
      exact not_lt.1 fun hn => hword (Finite.isWord_iff.2 ⟨n, hvalue, hn⟩)

end Number

end Stencil
