import Mathlib.Tactic.Ring
import Stencil.Proofs.Number.Values
set_option autoImplicit false

/-!
# Exact operations

An integer up to `2 ^ 53` in size is a number as it is. So where the exact result of an operation on whole
numbers is such an integer, rounding has nothing to do. Signs and magnitudes are kept apart by the
operations; put together again they follow the integers. Main statement: `Binary64.isWhole_ofRatio`, from
which `IsWhole.add`, `IsWhole.mul`, `IsWhole.div` and `IsWhole.rem` follow.
-/

namespace Stencil

-- A comparison of two terms that stay as they are would compute the power.
attribute [local irreducible] Binary64.unitsPerOne

namespace Binary64

def withSign (negative : Bool) (m : ℕ) : ℤ := if negative then -m else m

@[simp] theorem natAbs_withSign (s : Bool) (m : ℕ) : (withSign s m).natAbs = m := by
  cases s <;> simp [withSign]

@[simp] theorem withSign_natAbs (n : ℤ) : withSign (decide (n < 0)) n.natAbs = n := by
  simp only [withSign, decide_eq_true_eq]
  split <;> omega

theorem withSign_mul (s t : Bool) (m n : ℕ) : withSign s m * withSign t n = withSign (s != t) (m * n) := by
  cases s <;> cases t <;> simp [withSign]

theorem withSign_tmod (s t : Bool) (m n : ℕ) : (withSign s m).tmod (withSign t n) = withSign s (m % n) := by
  cases s <;> cases t <;> simp [withSign, Int.tmod_eq_emod_of_nonneg]

theorem withSign_mul_natCast (s : Bool) (m n : ℕ) : withSign s m * n = withSign s (m * n) := by
  cases s <;> simp [withSign]

/-- The number is this integer. Zero may have either sign. -/
def IsWhole (b : Binary64) (n : ℤ) : Prop := ∃ x : Finite, b = .finite x ∧ x.value = n

/-- A fraction that is an integer of up to 53 bits, or `2 ^ 53`, is not rounded. -/
theorem isWhole_ofRatio {negative : Bool} {num den : ℕ} {n : ℤ} (hn : n.natAbs ≤ 2 ^ 53)
    (hden : 0 < den) (h : withSign negative num = n * unitsPerOne * den) :
    (ofRatio negative num den).IsWhole n := by
  have hnum : num = n.natAbs * unitsPerOne * den := by
    simpa [Int.natAbs_mul] using congrArg Int.natAbs h
  have hscale : scaleFor (n.natAbs * unitsPerOne) ≤ 2044 := by
    have := scaleFor_whole_le (m := n.natAbs) (j := 1) (by omega)
    omega
  obtain ⟨x, -, hnegative, hmagnitude⟩ := ofRatio_one negative hscale
  rw [nearest_whole hn] at hmagnitude
  have hx : ofRatio negative num den = .finite x := by
    rw [hnum, ← hmagnitude, ← hnegative]
    exact ofRatio_magnitude x hden
  have hunits : x.units = n * unitsPerOne := by
    have hpos : (den : ℤ) ≠ 0 := by omega
    refine mul_right_cancel₀ hpos ?_
    calc x.units * den = withSign x.negative x.magnitude * den := rfl
      _ = n * unitsPerOne * den := by rw [withSign_mul_natCast, hnegative, hmagnitude, ← hnum, h]
  exact ⟨x, hx, Finite.value_eq_intCast_iff.2 hunits⟩

namespace IsWhole

variable {x y : Binary64} {a b q : ℤ}

theorem neg (hx : x.IsWhole a) : x.neg.IsWhole (-a) := by
  obtain ⟨x, rfl, hx⟩ := hx
  rw [Finite.value_eq_intCast_iff] at hx
  refine ⟨x.neg, rfl, ?_⟩
  rw [Finite.value_eq_intCast_iff, Finite.units_neg, hx, neg_mul]

theorem add (hx : x.IsWhole a) (hy : y.IsWhole b) (h : (a + b).natAbs ≤ 2 ^ 53) :
    (x.add y).IsWhole (a + b) := by
  obtain ⟨x, rfl, hx⟩ := hx
  obtain ⟨y, rfl, hy⟩ := hy
  have hunits : x.units + y.units = (a + b) * unitsPerOne := by
    rw [Finite.value_eq_intCast_iff.1 hx, Finite.value_eq_intCast_iff.1 hy, add_mul]
  rw [Binary64.add]
  split
  · next hzero =>
    refine ⟨_, rfl, ?_⟩
    rw [Finite.value_eq_intCast_iff, Finite.units_zero, ← hunits, hzero]
  · refine isWhole_ofRatio h one_pos ?_
    rw [withSign_natAbs, hunits, Nat.cast_one, mul_one]

theorem sub (hx : x.IsWhole a) (hy : y.IsWhole b) (h : (a - b).natAbs ≤ 2 ^ 53) :
    (x.sub y).IsWhole (a - b) := by
  rw [sub_eq_add_neg] at h ⊢
  exact hx.add hy.neg h

theorem mul (hx : x.IsWhole a) (hy : y.IsWhole b) (h : (a * b).natAbs ≤ 2 ^ 53) :
    (x.mul y).IsWhole (a * b) := by
  obtain ⟨x, rfl, hx⟩ := hx
  obtain ⟨y, rfl, hy⟩ := hy
  refine isWhole_ofRatio h unitsPerOne_pos ?_
  calc withSign (x.negative != y.negative) (x.magnitude * y.magnitude)
      = x.units * y.units := (withSign_mul ..).symm
    _ = a * b * unitsPerOne * unitsPerOne := by
        rw [Finite.value_eq_intCast_iff.1 hx, Finite.value_eq_intCast_iff.1 hy]
        ring

theorem magnitude_pos {y : Finite} (hy : y.value = b) (hb : b ≠ 0) : 0 < y.magnitude := by
  rw [Finite.magnitude_of_value hy]
  exact Nat.mul_pos (Int.natAbs_pos.2 hb) unitsPerOne_pos

/-- The units are cut like the integers, as both are so many times larger. The sign is that of the dividend
by definition. -/
theorem rem (hx : x.IsWhole a) (hy : y.IsWhole b) (hb : b ≠ 0) (h : (a.tmod b).natAbs ≤ 2 ^ 53) :
    (x.rem y).IsWhole (a.tmod b) := by
  obtain ⟨x, rfl, hx⟩ := hx
  obtain ⟨y, rfl, hy⟩ := hy
  have hone : (0 : ℤ) < unitsPerOne := by exact_mod_cast unitsPerOne_pos
  rw [Binary64.rem, if_neg (magnitude_pos hy hb).ne']
  refine isWhole_ofRatio h one_pos ?_
  calc withSign x.negative (x.magnitude % y.magnitude)
      = x.units.tmod y.units := (withSign_tmod ..).symm
    _ = (unitsPerOne * a : ℤ).tmod (unitsPerOne * b) := by
        rw [Finite.value_eq_intCast_iff.1 hx, Finite.value_eq_intCast_iff.1 hy, mul_comm a, mul_comm b]
    _ = a.tmod b * unitsPerOne * (1 : ℕ) := by
        rw [Int.mul_tmod_mul_of_pos _ _ hone]
        ring

theorem div (hx : x.IsWhole a) (hy : y.IsWhole b) (hb : b ≠ 0) (ha : a = b * q)
    (h : q.natAbs ≤ 2 ^ 53) : (x.div y).IsWhole q := by
  obtain ⟨x, rfl, hx⟩ := hx
  obtain ⟨y, rfl, hy⟩ := hy
  have hpos := magnitude_pos hy hb
  rw [Binary64.div, if_neg hpos.ne']
  refine isWhole_ofRatio h hpos ?_
  have hsize : y.units * withSign y.negative unitsPerOne = y.magnitude * unitsPerOne := by
    calc y.units * withSign y.negative unitsPerOne
        = withSign (y.negative != y.negative) (y.magnitude * unitsPerOne) := withSign_mul ..
      _ = y.magnitude * unitsPerOne := by simp [withSign]
  calc withSign (x.negative != y.negative) (x.magnitude * unitsPerOne)
      = x.units * withSign y.negative unitsPerOne := (withSign_mul ..).symm
    _ = q * (y.units * withSign y.negative unitsPerOne) := by
        rw [Finite.value_eq_intCast_iff.1 hx, Finite.value_eq_intCast_iff.1 hy, ha]
        ring
    _ = q * unitsPerOne * y.magnitude := by
        rw [hsize]
        ring

end IsWhole

theorem not_isFinite_of_zero {x y : Binary64} (hx : x.isFinite) (hy : y.IsWhole 0) :
    (x.div y).isFinite = false ∧ (x.rem y).isFinite = false := by
  obtain ⟨y, rfl, hy⟩ := hy
  have hzero : y.magnitude = 0 := by simpa using Finite.magnitude_of_value hy
  cases x with
  | finite x =>
    simp only [div, rem, hzero, if_true]
    constructor
    · split <;> rfl
    · rfl
  | _ => cases hx

end Binary64

namespace Number

theorem isWhole_toBinary64 {m : Number} {n : ℤ} (h : m.value = n) (hn : n.natAbs ≤ 2 ^ 53) :
    m.toBinary64.IsWhole n := by
  cases m with
  | int k =>
    obtain rfl : k = n := Rat.intCast_inj.1 h
    obtain ⟨x, hx, -, hunits⟩ := Binary64.ofInt_of_fitsWord (n := k) ⟨by omega, by omega⟩
    refine ⟨x, hx, ?_⟩
    rw [Binary64.Finite.value_eq_intCast_iff, hunits, Binary64.nearestUnits_whole hn]
  | float x => exact ⟨x, rfl, h⟩

end Number

end Stencil
