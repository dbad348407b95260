import Mathlib.Algebra.Order.Field.Power
import Mathlib.Algebra.Order.Group.Int
import Mathlib.Tactic.Linarith
import Mathlib.Tactic.Ring
import Stencil.Proofs.Number.Values
set_option autoImplicit false

/-!
# The shortest decimal of a number

The search for a decimal goes from coarse grids to finer ones and ends at the first grid that has a point in
the window of the number. So the point found is not zero, behind the decimal point it has no digit that
could be spared, and it is whole only for whole numbers. Main statements: `Binary64.Finite.shortest_spec`
and `Binary64.Finite.shortest_exponent_neg_iff`.
-/

namespace Stencil

-- A comparison of two terms that stay as they are would compute the power.
attribute [local irreducible] Binary64.unitsPerOne

namespace Binary64

namespace Window

variable {w : Window} {exponent : ℤ} {c : ℕ} {p q r : ℚ} {tie : Tie}

/-- The rational number, in quarters of a unit, lies in the window. -/
def Contains (w : Window) (q : ℚ) : Prop :=
  if w.closed then w.lower ≤ q ∧ q ≤ w.upper else w.lower < q ∧ q < w.upper

/-- Where a grid has its point with this coefficient, in quarters of a unit. -/
def point (exponent : ℤ) (c : ℕ) : ℚ := c * 10 ^ exponent * (4 * unitsPerOne)

theorem Contains.between (hp : w.Contains p) (hr : w.Contains r) (hpq : p ≤ q) (hqr : q ≤ r) :
    w.Contains q := by
  unfold Contains at *
  split
  · next hclosed =>
    rw [if_pos hclosed] at hp hr
    exact ⟨hp.1.trans hpq, hqr.trans hr.2⟩
  · next hopen =>
    rw [if_neg hopen] at hp hr
    exact ⟨hp.1.trans_le hpq, hqr.trans_lt hr.2⟩

theorem contains_of_lt (hlower : w.lower < q) (hupper : q < w.upper) : w.Contains q := by
  unfold Contains
  split
  · exact ⟨hlower.le, hupper.le⟩
  · exact ⟨hlower, hupper⟩

theorem Contains.bounds (h : w.Contains q) : w.lower ≤ q ∧ q ≤ w.upper := by
  unfold Contains at h
  split at h
  · exact h
  · exact ⟨h.1.le, h.2.le⟩

theorem point_mono {c d : ℕ} (h : c ≤ d) : point exponent c ≤ point exponent d := by
  unfold point
  gcongr

theorem point_succ (exponent : ℤ) (c : ℕ) :
    point exponent (c + 1) = point exponent c + point exponent 1 := by
  unfold point
  push_cast
  ring

theorem point_ten_mul (exponent : ℤ) (c : ℕ) : point exponent (10 * c) = point (exponent + 1) c := by
  unfold point
  rw [zpow_add_one₀ (by norm_num)]
  push_cast
  ring

theorem point_finest_le : point (-324) 1 ≤ 1 := by
  obtain ⟨k, hk⟩ : ∃ k, k = 324 := ⟨_, rfl⟩
  have hfine : 4 * unitsPerOne ≤ 10 ^ k := by
    rw [hk]
    decide +kernel
  have hexponent : (-324 : ℤ) = -(k : ℤ) := by omega
  rw [point, hexponent, zpow_neg, zpow_natCast, Nat.cast_one, one_mul, inv_mul_le_one₀ (by positivity)]
  exact_mod_cast hfine

theorem step_pos (exponent : ℤ) : 0 < (step exponent).1 ∧ 0 < (step exponent).2 := by
  have hone := unitsPerOne_pos
  unfold step
  split <;> simp [hone]

theorem point_eq_step (exponent : ℤ) (c : ℕ) :
    point exponent c = c * (step exponent).1 / (step exponent).2 := by
  unfold point step
  split
  · next h =>
    obtain ⟨n, rfl⟩ := Int.eq_ofNat_of_zero_le h
    simp [mul_assoc]
  · next h =>
    obtain ⟨n, hn⟩ : ∃ n : ℕ, exponent = -n := ⟨(-exponent).toNat, by omega⟩
    subst hn
    simp [div_eq_mul_inv]
    ring

theorem holds_iff : w.holds exponent c ↔ w.Contains (point exponent c) := by
  obtain ⟨-, hden⟩ := step_pos exponent
  have hden : (0 : ℚ) < (step exponent).2 := by exact_mod_cast hden
  have hholds : w.holds exponent c =
      if w.closed then
        w.lower * (step exponent).2 ≤ c * (step exponent).1 &&
          c * (step exponent).1 ≤ w.upper * (step exponent).2
      else
        w.lower * (step exponent).2 < c * (step exponent).1 &&
          c * (step exponent).1 < w.upper * (step exponent).2 := rfl
  rw [hholds, Contains, point_eq_step, le_div_iff₀ hden, div_le_iff₀ hden, lt_div_iff₀ hden,
    div_lt_iff₀ hden]
  split <;> simp only [Bool.and_eq_true, decide_eq_true_iff] <;> norm_cast

def below (w : Window) (exponent : ℤ) : ℕ := w.value * (step exponent).2 / (step exponent).1

theorem point_below_le (w : Window) (exponent : ℤ) : point exponent (w.below exponent) ≤ w.value := by
  obtain ⟨-, hden⟩ := step_pos exponent
  rw [point_eq_step, div_le_iff₀ (by exact_mod_cast hden)]
  exact_mod_cast Nat.div_mul_le_self _ _

theorem lt_point_below_succ (w : Window) (exponent : ℤ) :
    w.value < point exponent (w.below exponent + 1) := by
  obtain ⟨hnum, hden⟩ := step_pos exponent
  rw [point_eq_step, lt_div_iff₀ (by exact_mod_cast hden)]
  exact_mod_cast Nat.lt_mul_of_div_lt (Nat.lt_succ_self _) hnum

theorem nearest?_cases (w : Window) (exponent : ℤ) (tie : Tie) :
    (w.nearest? tie exponent = none ∧ ¬ w.holds exponent (w.below exponent) ∧
      ¬ w.holds exponent (w.below exponent + 1)) ∨
    ∃ c, w.nearest? tie exponent = some c ∧ w.holds exponent c := by
  unfold nearest? below
  rcases step exponent with ⟨num, den⟩
  dsimp only
  split
  · next hbelow habove => exact .inl ⟨rfl, by simp [hbelow], by simp [habove]⟩
  · next hbelow _ => exact .inr ⟨_, rfl, hbelow⟩
  · next _ habove => exact .inr ⟨_, rfl, habove⟩
  · next hbelow habove =>
    refine .inr ?_
    split
    · exact ⟨_, rfl, hbelow⟩
    · exact ⟨_, rfl, habove⟩
    · cases tie with
      | up => exact ⟨_, rfl, habove⟩
      | toEven =>
        refine ⟨_, rfl, ?_⟩
        split
        · exact hbelow
        · exact habove

theorem contains_of_nearest? (h : w.nearest? tie exponent = some c) : w.Contains (point exponent c) := by
  obtain ⟨hnone, -⟩ | ⟨d, hd, hholds⟩ := w.nearest?_cases exponent tie
  · rw [hnone] at h
    cases h
  · rw [h] at hd
    cases hd
    exact holds_iff.1 hholds

/-- Between the value and any point of the grid in the window there is a neighbour of the value. -/
theorem exists_nearest? (hvalue : w.Contains w.value) (h : w.Contains (point exponent c)) (tie : Tie) :
    ∃ d, w.nearest? tie exponent = some d := by
  obtain ⟨-, hbelow, habove⟩ | ⟨d, hd, -⟩ := w.nearest?_cases exponent tie
  · rw [holds_iff] at hbelow habove
    obtain hle | hlt := Nat.lt_or_ge (w.below exponent) c
    · exact absurd (hvalue.between h (w.lt_point_below_succ exponent).le (point_mono hle)) habove
    · exact absurd (h.between hvalue (point_mono hlt) (w.point_below_le exponent)) hbelow
  · exact ⟨d, hd⟩

theorem coarsest_spec {grids : ℕ} {d : Decimal} (h : w.coarsest tie grids exponent = some d) :
    w.nearest? tie d.exponent = some d.coefficient ∧
      ∀ k, d.exponent < k → k ≤ exponent → w.nearest? tie k = none := by
  induction grids generalizing exponent with
  | zero => cases h
  | succ grids ih =>
    rw [coarsest] at h
    split at h
    · next c hc =>
      cases h
      exact ⟨hc, fun k hlt hle => absurd hle (not_le.2 hlt)⟩
    · next hnone =>
      obtain ⟨hfound, hcoarser⟩ := ih h
      refine ⟨hfound, fun k hk hle => ?_⟩
      obtain rfl | hlt := eq_or_lt_of_le hle
      · exact hnone
      · exact hcoarser k hk (by omega)

theorem exists_coarsest {grids : ℕ} {k : ℤ} (hk : w.nearest? tie k = some c) (hle : k ≤ exponent)
    (hlt : exponent < k + grids) : ∃ d, w.coarsest tie grids exponent = some d := by
  induction grids generalizing exponent with
  | zero => omega
  | succ grids ih =>
    rw [coarsest]
    split
    · exact ⟨_, rfl⟩
    · next hnone =>
      have hne : k ≠ exponent := by
        rintro rfl
        rw [hk] at hnone
        cases hnone
      exact ih (by omega) (by omega)

end Window

namespace Finite

open Window

variable {x : Finite} {q : ℚ} {tie : Tie}

theorem abs_sub_le_of_contains (h : (ofFinite x).Contains q) :
    |q - 4 * x.magnitude| ≤ 2 * 2 ^ x.scale := by
  obtain ⟨hlower, hupper⟩ := h.bounds
  have hstart : (4 * x.magnitude : ℚ) ≤ (ofFinite x).lower + 2 * 2 ^ x.scale := by
    have hnat : 4 * x.magnitude ≤ (ofFinite x).lower + 2 * 2 ^ x.scale := by
      simp only [ofFinite]
      split <;> omega
    exact_mod_cast hnat
  have hend : ((ofFinite x).upper : ℚ) = 4 * x.magnitude + 2 * 2 ^ x.scale := by
    simp [ofFinite]
  rw [abs_le]
  constructor <;> linarith

theorem add_scale_le_of_dvd {k a b : ℕ} (ha : 2 ^ k ∣ a) (hb : 2 ^ k ∣ b) (h : a < b) :
    a + 2 ^ k ≤ b := by
  have := Nat.le_of_dvd (Nat.sub_pos_of_lt h) (Nat.dvd_sub hb ha)
  omega

theorem scale_dvd_magnitude {k : ℕ} (h : k ≤ x.scale) : 2 ^ k ∣ x.magnitude :=
  (Nat.pow_dvd_pow 2 h).trans (Nat.dvd_mul_left _ _)

theorem upper_le {y : Finite} (h : x.magnitude < y.magnitude) :
    (ofFinite x).upper ≤ 2 * (x.magnitude + y.magnitude) := by
  have hscale : x.scale ≤ y.scale := by
    refine not_lt.1 fun hlt => ?_
    have hfull := x.canonical.2.2.resolve_left (by omega)
    have := lt_of_scale_lt y.canonical.1 hfull hlt
    unfold magnitude at h
    omega
  have := add_scale_le_of_dvd (scale_dvd_magnitude le_rfl) (scale_dvd_magnitude hscale) h
  simp only [ofFinite]
  omega

theorem le_lower {y : Finite} (h : y.magnitude < x.magnitude) :
    2 * (y.magnitude + x.magnitude) ≤ (ofFinite x).lower := by
  have hsmaller {n k : ℕ} (hn : 2 ^ (52 : ℕ) ≤ n) (hlt : y.scale < k) : y.magnitude < n * 2 ^ k :=
    lt_of_scale_lt y.canonical.1 hn hlt
  simp only [ofFinite]
  split
  · next hpower =>
    obtain ⟨k, hk⟩ := Nat.exists_eq_succ_of_ne_zero hpower.2
    have hstep : y.magnitude + 2 ^ k ≤ x.magnitude := by
      obtain hle | hlt := le_or_gt k y.scale
      · exact add_scale_le_of_dvd (scale_dvd_magnitude hle) (scale_dvd_magnitude (by omega)) h
      · have hhalf := hsmaller (n := x.significand) hpower.1.ge hlt
        have hmagnitude : x.magnitude = x.significand * 2 ^ k * 2 := by
          rw [magnitude, hk, pow_succ, mul_assoc]
        have hwhole : 2 ^ k ≤ x.significand * 2 ^ k := Nat.le_mul_of_pos_left _ (by omega)
        omega
    rw [hk, pow_succ]
    omega
  · next hpower =>
    have hstep : y.magnitude + 2 ^ x.scale ≤ x.magnitude := by
      obtain hle | hlt := le_or_gt x.scale y.scale
      · exact add_scale_le_of_dvd (scale_dvd_magnitude hle) (scale_dvd_magnitude le_rfl) h
      · have hfull := x.canonical.2.2.resolve_left (by omega)
        have hbelow := hsmaller (n := x.significand - 1) (by omega) hlt
        have hmagnitude : x.magnitude = (x.significand - 1) * 2 ^ x.scale + 2 ^ x.scale := by
          rw [magnitude, ← Nat.succ_mul]
          congr 1
          omega
        omega
    omega

/-- No number is nearer than the one in whose window it lies. -/
theorem nearest_of_contains (h : (ofFinite x).Contains q) (y : Finite) :
    |q - 4 * x.magnitude| ≤ |q - 4 * y.magnitude| := by
  obtain ⟨hlower, hupper⟩ := h.bounds
  obtain hlt | heq | hgt := Nat.lt_trichotomy y.magnitude x.magnitude
  · have hmiddle : (2 * (y.magnitude + x.magnitude) : ℚ) ≤ (ofFinite x).lower := by
      exact_mod_cast le_lower hlt
    have hless : (y.magnitude : ℚ) < x.magnitude := by exact_mod_cast hlt
    rw [abs_of_pos (a := q - 4 * y.magnitude) (by linarith), abs_le]
    constructor <;> linarith
  · rw [heq]
  · have hmiddle : ((ofFinite x).upper : ℚ) ≤ 2 * (x.magnitude + y.magnitude) := by
      exact_mod_cast upper_le hgt
    have hless : (x.magnitude : ℚ) < y.magnitude := by exact_mod_cast hgt
    rw [abs_of_neg (a := q - 4 * y.magnitude) (by linarith), abs_le]
    constructor <;> linarith

theorem value_mul_quarters (x : Finite) : x.value * (4 * unitsPerOne) = 4 * x.units := by
  have hone : (unitsPerOne : ℚ) ≠ 0 := by exact_mod_cast unitsPerOne_pos.ne'
  rw [value, div_mul_eq_mul_div, div_eq_iff hone]
  ring

theorem abs_units (x : Finite) : |(x.units : ℚ)| = x.magnitude := by
  rw [← natAbs_units, Nat.cast_natAbs, Int.cast_abs]

theorem nearest_of_contains_signed (hq : 0 ≤ q) (h : (ofFinite x).Contains q) (y : Finite) :
    |(if x.negative then -1 else 1) * q - 4 * x.units| ≤
      |(if x.negative then -1 else 1) * q - 4 * y.units| := by
  have hsame : |(if x.negative then -1 else 1) * q - 4 * x.units| = |q - 4 * x.magnitude| := by
    unfold units
    split
    · rw [abs_sub_comm]
      push_cast
      ring_nf
    · simp
  have hsize : |(if x.negative then -1 else 1) * q| = q := by
    split <;> simp [abs_of_nonneg hq]
  calc |(if x.negative then -1 else 1) * q - 4 * x.units|
      = |q - 4 * x.magnitude| := hsame
    _ ≤ |q - 4 * y.magnitude| := nearest_of_contains h y
    _ = |(|(if x.negative then -1 else 1) * q| - |4 * (y.units : ℚ)|)| := by
        rw [hsize, abs_mul, abs_units, abs_of_pos (a := 4) (by norm_num)]
    _ ≤ |(if x.negative then -1 else 1) * q - 4 * y.units| := abs_abs_sub_abs_le _ _

/-- A whole number in the window of a number that is not whole would be less than a step away from it, and
both are on the same grid of such steps. -/
theorem value_of_contains_whole {m : ℕ} (h : (ofFinite x).Contains (m * (4 * unitsPerOne))) :
    ∃ n : ℤ, x.value = n := by
  have hnear : |(m * unitsPerOne - x.magnitude : ℤ)| * 2 ≤ 2 ^ x.scale := by
    have hquarters : |((m * unitsPerOne - x.magnitude : ℤ) : ℚ)| * 2 ≤ 2 ^ x.scale := by
      have hbound := abs_sub_le_of_contains h
      have hfour : (m * (4 * unitsPerOne) - 4 * x.magnitude : ℚ)
          = 4 * ((m * unitsPerOne - x.magnitude : ℤ) : ℚ) := by
        push_cast
        ring
      rw [hfour, abs_mul, abs_of_pos (by norm_num)] at hbound
      linarith
    exact_mod_cast hquarters
  have hmagnitude : 2 ^ x.scale ∣ x.magnitude := Nat.dvd_mul_left _ _
  obtain ⟨k, -, hone⟩ := unitsPerOne_eq
  refine isIntegral_iff.1 ?_
  rw [isIntegral, decide_eq_true_iff, ← Nat.dvd_iff_mod_eq_zero]
  obtain hle | hlt := le_or_gt k x.scale
  · rw [hone]
    exact (Nat.pow_dvd_pow 2 hle).trans hmagnitude
  · have hgrid : 2 ^ x.scale ∣ m * unitsPerOne := by
      rw [hone]
      exact (Nat.pow_dvd_pow 2 hlt.le).trans (Nat.dvd_mul_left _ _)
    have hstep : (2 ^ x.scale : ℤ) ∣ m * unitsPerOne - x.magnitude :=
      Int.dvd_sub (by exact_mod_cast hgrid) (by exact_mod_cast hmagnitude)
    have hpos : (0 : ℤ) < 2 ^ x.scale := by positivity
    have hzero := Int.eq_zero_of_abs_lt_dvd hstep (by omega)
    exact ⟨m, by rw [mul_comm]; omega⟩

theorem value_succ_lt_upper (x : Finite) : (ofFinite x).value + 1 < (ofFinite x).upper := by
  have hpos := Nat.two_pow_pos x.scale
  simp only [ofFinite]
  omega

section

variable (hx : x.significand ≠ 0)

include hx

theorem scale_pow_le_magnitude : 2 ^ x.scale ≤ x.magnitude :=
  Nat.le_mul_of_pos_left _ (Nat.pos_of_ne_zero hx)

theorem pos_of_contains (h : (ofFinite x).Contains q) : 0 < q := by
  have hnear := (abs_le.1 (abs_sub_le_of_contains h)).1
  have hmagnitude : (2 ^ x.scale : ℚ) ≤ x.magnitude := by exact_mod_cast scale_pow_le_magnitude hx
  have hpos : (0 : ℚ) < 2 ^ x.scale := by positivity
  linarith

theorem lower_lt_value : (ofFinite x).lower < (ofFinite x).value := by
  have hle := scale_pow_le_magnitude hx
  have hpos := Nat.two_pow_pos x.scale
  simp only [ofFinite]
  split <;> omega

theorem contains_value : (ofFinite x).Contains (ofFinite x).value := by
  have hupper := value_succ_lt_upper x
  refine contains_of_lt ?_ ?_
  · exact_mod_cast lower_lt_value hx
  · exact_mod_cast (by omega : (ofFinite x).value < (ofFinite x).upper)

theorem exists_nearest?_finest (tie : Tie) : ∃ c, (ofFinite x).nearest? tie (-324) = some c := by
  have hfine := point_finest_le
  have hbelow := point_below_le (ofFinite x) (-324)
  have habove := lt_point_below_succ (ofFinite x) (-324)
  have hlower : ((ofFinite x).lower : ℚ) < (ofFinite x).value := by exact_mod_cast lower_lt_value hx
  have hupper : ((ofFinite x).value : ℚ) + 1 < (ofFinite x).upper := by
    exact_mod_cast value_succ_lt_upper x
  refine exists_nearest? (contains_value hx) (contains_of_lt (hlower.trans habove) ?_) tie
  rw [point_succ]
  linarith

/-- The decimal found lies in the window, and no coarser grid has a point there. -/
theorem shortest_spec (tie : Tie) :
    (ofFinite x).Contains (point (x.shortest tie).exponent (x.shortest tie).coefficient) ∧
      ∀ k c, (x.shortest tie).exponent < k → k ≤ 309 → ¬ (ofFinite x).Contains (point k c) := by
  obtain ⟨c, hc⟩ := exists_nearest?_finest hx tie
  obtain ⟨d, hd⟩ : ∃ d, (ofFinite x).coarsest tie 634 309 = some d :=
    exists_coarsest hc (by decide) (by decide)
  obtain ⟨hfound, hcoarser⟩ := coarsest_spec hd
  have hshortest : x.shortest tie = d := by rw [shortest, hd, Option.getD_some]
  rw [hshortest]
  refine ⟨contains_of_nearest? hfound, fun k c hlt hle hcontains => ?_⟩
  obtain ⟨e, he⟩ := exists_nearest? (contains_value hx) hcontains tie
  rw [hcoarser k hlt hle] at he
  cases he

theorem abs_shortest_sub_value_le (tie : Tie) (y : Finite) :
    let q : ℚ := (if x.negative then -1 else 1) *
      ((x.shortest tie).coefficient * 10 ^ (x.shortest tie).exponent)
    |q - x.value| ≤ |q - y.value| := by
  intro q
  have hquarters : (0 : ℚ) < 4 * unitsPerOne := by exact_mod_cast Nat.mul_pos (by decide) unitsPerOne_pos
  have hfound := (shortest_spec hx tie).1
  have hpoint : q * (4 * unitsPerOne) = (if x.negative then -1 else 1) *
      point (x.shortest tie).exponent (x.shortest tie).coefficient := mul_assoc _ _ _
  have hdistance (z : Finite) :
      |q - z.value| * (4 * unitsPerOne) = |q * (4 * unitsPerOne) - 4 * z.units| := by
    rw [← value_mul_quarters, ← sub_mul, abs_mul, abs_of_pos hquarters]
  refine le_of_mul_le_mul_right ?_ hquarters
  rw [hdistance, hdistance, hpoint]
  exact nearest_of_contains_signed (pos_of_contains hx hfound).le hfound y

theorem shortest_coefficient_ne_zero (tie : Tie) : (x.shortest tie).coefficient ≠ 0 := by
  intro hzero
  have hpos := pos_of_contains hx (shortest_spec hx tie).1
  rw [hzero, point] at hpos
  simp at hpos

/-- Behind the decimal point the last digit is not zero: the grid before would have had the same point. -/
theorem not_ten_dvd_shortest (h : (x.shortest tie).exponent < 0) :
    ¬ 10 ∣ (x.shortest tie).coefficient := by
  rintro ⟨c, hc⟩
  obtain ⟨hfound, hcoarser⟩ := shortest_spec hx tie
  rw [hc, point_ten_mul] at hfound
  exact hcoarser _ c (by omega) (by omega) hfound

theorem shortest_exponent_neg_iff :
    (x.shortest tie).exponent < 0 ↔ ¬ ∃ n : ℤ, x.value = n := by
  obtain ⟨hfound, hcoarser⟩ := shortest_spec hx tie
  constructor
  · rintro hneg ⟨n, hn⟩
    refine hcoarser 0 n.natAbs hneg (by decide) ?_
    have hpoint : point 0 n.natAbs = (ofFinite x).value := by
      simp only [point, ofFinite, magnitude_of_value hn]
      push_cast
      ring
    rw [hpoint]
    exact contains_value hx
  · intro hfraction
    by_contra hnonneg
    obtain ⟨k, hk⟩ := Int.eq_ofNat_of_zero_le (not_lt.1 hnonneg)
    refine hfraction (value_of_contains_whole (m := (x.shortest tie).coefficient * 10 ^ k) ?_)
    rw [hk, point] at hfound
    simpa using hfound

end

end Finite

end Binary64

end Stencil
