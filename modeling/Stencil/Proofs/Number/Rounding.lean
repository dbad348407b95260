import Stencil.Number.Basic
set_option autoImplicit false

/-!
# Rounding

What is a finite number already stays as it is when it is rounded, and rounding never turns the order
of two whole numbers of units round. Main statements: `Binary64.ofRatio_magnitude`,
`Binary64.nearest_mono` and `Binary64.ofRatio_one`.
-/

namespace Stencil

-- Powers are core's, as in the definitions.
attribute [local instance (high)] instPowNat

namespace Binary64

/-- What is added to the quotient is zero or one, and one only where the rest is half or more. -/
theorem roundHalfEven_cases (num den : Nat) :
    (roundHalfEven num den = num / den ∧ 2 * (num % den) ≤ den) ∨
      (roundHalfEven num den = num / den + 1 ∧ den ≤ 2 * (num % den)) := by
  unfold roundHalfEven
  dsimp only
  split
  · omega
  · split <;> omega

theorem roundHalfEven_mono {den a b : Nat} (h : a ≤ b) : roundHalfEven a den ≤ roundHalfEven b den := by
  have hdiv : a / den ≤ b / den := Nat.div_le_div_right h
  obtain hlt | heq := Nat.lt_or_eq_of_le hdiv
  · have ha := roundHalfEven_cases a den
    have hb := roundHalfEven_cases b den
    omega
  · have hmod : a % den ≤ b % den := by
      have ha := Nat.div_add_mod a den
      have hb := Nat.div_add_mod b den
      rw [heq] at ha
      omega
    simp only [roundHalfEven, heq]
    grind

section

variable {den : Nat} (hden : 0 < den)

include hden

theorem roundHalfEven_mul (m : Nat) : roundHalfEven (m * den) den = m := by
  simp [roundHalfEven, Nat.mul_div_cancel _ hden, hden]

theorem roundHalfEven_error (num : Nat) :
    2 * num ≤ 2 * (roundHalfEven num den * den) + den ∧
      2 * (roundHalfEven num den * den) ≤ 2 * num + den := by
  have hnum := Nat.div_add_mod num den
  rw [Nat.mul_comm] at hnum
  obtain ⟨hround, hrest⟩ | ⟨hround, hrest⟩ := roundHalfEven_cases num den
  · rw [hround]
    omega
  · have hmod := Nat.mod_lt num hden
    rw [hround, Nat.add_mul, Nat.one_mul]
    omega

end

theorem lt_pow_scaleFor (units : Nat) : units < 2 ^ (53 + scaleFor units) := by
  calc units < 2 ^ (units.log2 + 1) := Nat.lt_log2_self
    _ ≤ 2 ^ (53 + scaleFor units) := Nat.pow_le_pow_right (by decide) (by unfold scaleFor; omega)

theorem pow_scaleFor_le {units : Nat} (h : scaleFor units ≠ 0) :
    2 ^ (52 + scaleFor units) ≤ units := by
  have hunits : units ≠ 0 := by
    rintro rfl
    exact h (by decide)
  have hlog : 52 + scaleFor units = units.log2 := by
    unfold scaleFor at h ⊢
    omega
  rw [hlog]
  exact Nat.log2_self_le hunits

theorem scaleFor_mono {a b : Nat} (h : a ≤ b) : scaleFor a ≤ scaleFor b := by
  unfold scaleFor
  by_cases ha : a = 0
  · subst ha
    simp
  · have hlog : a.log2 ≤ b.log2 := (Nat.le_log2 (by omega)).2 (Nat.le_trans (Nat.log2_self_le ha) h)
    omega

theorem scaleFor_magnitude (x : Finite) : scaleFor x.magnitude = x.scale := by
  obtain ⟨hlt, -, hnormal⟩ := x.canonical
  have hpos : 0 < 2 ^ x.scale := Nat.pow_pos (by decide)
  have hupper : x.magnitude < 2 ^ (53 + x.scale) := by
    rw [Nat.pow_add]
    exact Nat.mul_lt_mul_of_pos_right hlt hpos
  by_cases hscale : x.scale = 0
  · have h53 : x.magnitude < 2 ^ (53 : Nat) := by simpa [hscale] using hupper
    by_cases hzero : x.magnitude = 0
    · simp [scaleFor, hzero, hscale]
    · have hlog := (Nat.log2_lt hzero).2 h53
      unfold scaleFor
      omega
  · have hlower : 2 ^ (52 + x.scale) ≤ x.magnitude := by
      rw [Nat.pow_add]
      exact Nat.mul_le_mul_right _ (by omega)
    have hzero : x.magnitude ≠ 0 := by
      have := Nat.two_pow_pos (52 + x.scale)
      omega
    have hlog := (Nat.log2_eq_iff hzero).2 ⟨hlower, by rwa [show 52 + x.scale + 1 = 53 + x.scale by omega]⟩
    unfold scaleFor
    omega

/-- The magnitude of the number nearest to so many units, if no number were too large. -/
def nearest (units : Nat) : Nat :=
  roundHalfEven units (2 ^ scaleFor units) * 2 ^ scaleFor units

theorem nearest_magnitude (x : Finite) : nearest x.magnitude = x.magnitude := by
  unfold nearest
  rw [scaleFor_magnitude]
  exact congrArg (· * 2 ^ x.scale) (roundHalfEven_mul (Nat.two_pow_pos _) x.significand)

theorem nearest_error (units : Nat) :
    2 * units ≤ 2 * nearest units + 2 ^ scaleFor units ∧
      2 * nearest units ≤ 2 * units + 2 ^ scaleFor units :=
  roundHalfEven_error (Nat.two_pow_pos _) units

theorem roundHalfEven_scaleFor_le (units : Nat) :
    roundHalfEven units (2 ^ scaleFor units) ≤ 2 ^ (53 : Nat) := by
  have hpos := Nat.two_pow_pos (scaleFor units)
  calc roundHalfEven units (2 ^ scaleFor units)
      ≤ roundHalfEven (2 ^ (53 : Nat) * 2 ^ scaleFor units) (2 ^ scaleFor units) :=
        roundHalfEven_mono (by rw [← Nat.pow_add]; exact Nat.le_of_lt (lt_pow_scaleFor units))
    _ = 2 ^ (53 : Nat) := roundHalfEven_mul hpos _

theorem le_roundHalfEven_scaleFor {units : Nat} (h : scaleFor units ≠ 0) :
    2 ^ (52 : Nat) ≤ roundHalfEven units (2 ^ scaleFor units) := by
  have hpos := Nat.two_pow_pos (scaleFor units)
  calc 2 ^ (52 : Nat)
      = roundHalfEven (2 ^ (52 : Nat) * 2 ^ scaleFor units) (2 ^ scaleFor units) :=
        (roundHalfEven_mul hpos _).symm
    _ ≤ roundHalfEven units (2 ^ scaleFor units) :=
        roundHalfEven_mono (by rw [← Nat.pow_add]; exact pow_scaleFor_le h)

theorem nearest_mono {a b : Nat} (h : a ≤ b) : nearest a ≤ nearest b := by
  obtain hlt | heq := Nat.lt_or_eq_of_le (scaleFor_mono h)
  · -- A number of a larger scale is at least as large as the bound of the smaller one.
    calc nearest a ≤ 2 ^ (53 : Nat) * 2 ^ scaleFor a :=
          Nat.mul_le_mul_right _ (roundHalfEven_scaleFor_le a)
      _ = 2 ^ (53 + scaleFor a) := (Nat.pow_add ..).symm
      _ ≤ 2 ^ (52 + scaleFor b) := Nat.pow_le_pow_right (by decide) (by omega)
      _ = 2 ^ (52 : Nat) * 2 ^ scaleFor b := Nat.pow_add ..
      _ ≤ nearest b := Nat.mul_le_mul_right _ (le_roundHalfEven_scaleFor (by omega))
  · unfold nearest
    rw [heq]
    exact Nat.mul_le_mul_right _ (roundHalfEven_mono h)

/-- A finite number is its own nearest one, also if it is given as a fraction. -/
theorem ofRatio_magnitude (x : Finite) {den : Nat} (hden : 0 < den) :
    ofRatio x.negative (x.magnitude * den) den = .finite x := by
  have hpos : 0 < den * 2 ^ x.scale := Nat.mul_pos hden (Nat.two_pow_pos _)
  have hround : roundHalfEven (x.magnitude * den) (den * 2 ^ x.scale) = x.significand := by
    rw [Finite.magnitude, Nat.mul_assoc, Nat.mul_comm (2 ^ x.scale)]
    exact roundHalfEven_mul hpos _
  rw [ofRatio, Nat.mul_div_cancel _ hden, scaleFor_magnitude, hround, pack, dif_pos x.canonical]

/-- So many whole units are rounded to a finite number, as long as there is room for the scale. -/
theorem ofRatio_one (negative : Bool) {units : Nat} (h : scaleFor units ≤ 2044) :
    ∃ x : Finite, ofRatio negative units 1 = .finite x ∧ x.negative = negative ∧
      x.magnitude = nearest units := by
  have hle := roundHalfEven_scaleFor_le units
  have hnormal : scaleFor units = 0 ∨ 2 ^ (52 : Nat) ≤ roundHalfEven units (2 ^ scaleFor units) :=
    Decidable.or_iff_not_imp_left.2 le_roundHalfEven_scaleFor
  rw [ofRatio, Nat.div_one, Nat.one_mul]
  unfold nearest
  generalize roundHalfEven units (2 ^ scaleFor units) = significand at hle hnormal ⊢
  obtain hlt | rfl := Nat.lt_or_eq_of_le hle
  · have hc : Canonical significand (scaleFor units) := ⟨hlt, by omega, hnormal⟩
    rw [pack, dif_pos hc]
    exact ⟨_, rfl, rfl, rfl⟩
  · -- A significand of `2 ^ 53` is carried into the scale.
    have hc : ¬ Canonical (2 ^ (53 : Nat)) (scaleFor units) := fun hc => absurd hc.1 (by decide)
    have hc' : Canonical (2 ^ (53 : Nat) / 2) (scaleFor units + 1) :=
      ⟨by decide, by omega, .inr (by decide)⟩
    rw [pack, dif_neg hc, dif_pos hc']
    refine ⟨_, rfl, rfl, ?_⟩
    show 2 ^ (53 : Nat) / 2 * (2 ^ scaleFor units * 2) = 2 ^ (53 : Nat) * 2 ^ scaleFor units
    omega

end Binary64

end Stencil
