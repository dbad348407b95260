import Stencil.Proofs.Number.Rounding
set_option autoImplicit false

namespace Stencil

-- Powers are core's, as in the definitions.
attribute [local instance (high)] instPowNat

-- A comparison of two terms that stay as they are would compute the power.
attribute [local irreducible] Binary64.unitsPerOne

namespace Binary64

/-- The exponent has a name here, so that nobody computes the power. -/
theorem unitsPerOne_eq : ∃ k : Nat, k = 1074 ∧ unitsPerOne = 2 ^ k := ⟨_, rfl, unitsPerOne.eq_1⟩

theorem unitsPerOne_pos : 0 < unitsPerOne := by
  obtain ⟨k, -, hone⟩ := unitsPerOne_eq
  rw [hone]
  exact Nat.two_pow_pos k

theorem scaleFor_le {units k : Nat} (h : units < 2 ^ (53 + k)) : scaleFor units ≤ k := by
  unfold scaleFor
  by_cases hzero : units = 0
  · subst hzero
    simp
  · have := (Nat.log2_lt hzero).2 h
    omega

theorem scaleFor_whole_le {m j : Nat} (h : m < 2 ^ (53 + j)) :
    scaleFor (m * unitsPerOne) ≤ 1074 + j := by
  obtain ⟨k, hk, hone⟩ := unitsPerOne_eq
  rw [← hk]
  refine scaleFor_le ?_
  calc m * unitsPerOne < 2 ^ (53 + j) * unitsPerOne := Nat.mul_lt_mul_of_pos_right h unitsPerOne_pos
    _ = 2 ^ (53 + (k + j)) := by rw [hone, ← Nat.pow_add, Nat.add_assoc, Nat.add_comm j]

theorem nearest_of_dvd {units : Nat} (h : 2 ^ scaleFor units ∣ units) : nearest units = units := by
  have hpos := Nat.two_pow_pos (scaleFor units)
  calc nearest units
      = roundHalfEven (units / 2 ^ scaleFor units * 2 ^ scaleFor units) (2 ^ scaleFor units) *
          2 ^ scaleFor units := by rw [Nat.div_mul_cancel h, nearest]
    _ = units := by rw [roundHalfEven_mul hpos, Nat.div_mul_cancel h]

theorem nearest_whole {m : Nat} (h : m ≤ 2 ^ (53 : Nat)) :
    nearest (m * unitsPerOne) = m * unitsPerOne := by
  obtain ⟨k, hk, hone⟩ := unitsPerOne_eq
  refine nearest_of_dvd ?_
  obtain hlt | rfl := Nat.lt_or_eq_of_le h
  · have hscale : scaleFor (m * unitsPerOne) ≤ k := by
      have := scaleFor_whole_le (j := 0) hlt
      omega
    rw [hone] at hscale ⊢
    exact Nat.dvd_trans (Nat.pow_dvd_pow 2 hscale) (Nat.dvd_mul_left _ m)
  · have hscale : scaleFor (2 ^ (53 : Nat) * unitsPerOne) ≤ 53 + k := by
      have := scaleFor_whole_le (m := 2 ^ (53 : Nat)) (j := 1) (by decide)
      omega
    rw [hone, ← Nat.pow_add] at hscale ⊢
    exact Nat.pow_dvd_pow 2 hscale

theorem nearest_pos {m : Nat} (h : 0 < m) : 0 < nearest (m * unitsPerOne) := by
  calc 0 < 1 * unitsPerOne := by simpa using unitsPerOne_pos
    _ = nearest (1 * unitsPerOne) := (nearest_whole (by decide)).symm
    _ ≤ nearest (m * unitsPerOne) := nearest_mono (Nat.mul_le_mul_right _ h)

/-- The units of the number nearest to an integer. -/
def nearestUnits (n : Int) : Int :=
  if n < 0 then -(nearest (n.natAbs * unitsPerOne) : Int) else nearest (n.natAbs * unitsPerOne)

theorem nearestUnits_neg_iff (n : Int) : nearestUnits n < 0 ↔ n < 0 := by
  unfold nearestUnits
  split
  · next h =>
    have hpos := nearest_pos (m := n.natAbs) (by omega)
    omega
  · omega

theorem nearestUnits_mono {a b : Int} (h : a ≤ b) : nearestUnits a ≤ nearestUnits b := by
  have hmono {m n : Nat} (h : m ≤ n) : nearest (m * unitsPerOne) ≤ nearest (n * unitsPerOne) :=
    nearest_mono (Nat.mul_le_mul_right _ h)
  unfold nearestUnits
  split <;> split
  · have := hmono (show b.natAbs ≤ a.natAbs by omega)
    omega
  · omega
  · omega
  · have := hmono (show a.natAbs ≤ b.natAbs by omega)
    omega

theorem mul_eq_ite_natAbs (n : Int) (one : Nat) :
    n * one = if n < 0 then -((n.natAbs * one : Nat) : Int) else (n.natAbs * one : Nat) := by
  split
  · rw [Int.natCast_mul, ← Int.neg_mul, show -(n.natAbs : Int) = n by omega]
  · rw [Int.natCast_mul, show (n.natAbs : Int) = n by omega]

theorem nearestUnits_whole {n : Int} (h : n.natAbs ≤ 2 ^ (53 : Nat)) :
    nearestUnits n = n * unitsPerOne := by
  rw [nearestUnits, nearest_whole h, mul_eq_ite_natAbs]

/-- An integer less than `2 ^ 53` in size differs from every other one after rounding as well. -/
theorem nearestUnits_ne {a b : Int} (h : a.natAbs < 2 ^ (53 : Nat)) (hne : a ≠ b) :
    nearestUnits a ≠ nearestUnits b := by
  have hpos : (0 : Int) < unitsPerOne := Int.ofNat_lt.2 unitsPerOne_pos
  have ha := nearestUnits_whole (n := a) (by omega)
  obtain hlt | hlt : a < b ∨ b < a := by omega
  · have hnext := nearestUnits_whole (n := a + 1) (by omega)
    have hmono := nearestUnits_mono (show a + 1 ≤ b by omega)
    rw [Int.add_mul] at hnext
    omega
  · have hnext := nearestUnits_whole (n := a - 1) (by omega)
    have hmono := nearestUnits_mono (show b ≤ a - 1 by omega)
    rw [Int.sub_mul] at hnext
    omega

theorem nearestUnits_error {n : Int} (h : n.natAbs < 2 ^ (64 : Nat)) :
    (n * unitsPerOne - nearestUnits n).natAbs ≤ 2 ^ (10 : Nat) * unitsPerOne := by
  have hstep : 2 ^ scaleFor (n.natAbs * unitsPerOne) ≤ 2 ^ (11 : Nat) * unitsPerOne := by
    obtain ⟨k, hk, hone⟩ := unitsPerOne_eq
    have hscale : scaleFor (n.natAbs * unitsPerOne) ≤ 11 + k := by
      have := scaleFor_whole_le (j := 11) h
      omega
    calc 2 ^ scaleFor (n.natAbs * unitsPerOne) ≤ 2 ^ (11 + k) := Nat.pow_le_pow_right (by decide) hscale
      _ = 2 ^ (11 : Nat) * unitsPerOne := by rw [hone, Nat.pow_add]
  have herror := nearest_error (n.natAbs * unitsPerOne)
  rw [mul_eq_ite_natAbs, nearestUnits]
  generalize nearest (n.natAbs * unitsPerOne) = rounded at herror ⊢
  generalize 2 ^ scaleFor (n.natAbs * unitsPerOne) = step at herror hstep
  generalize n.natAbs * unitsPerOne = units at herror ⊢
  generalize unitsPerOne = one at hstep ⊢
  split <;> omega

theorem natAbs_sub_le_of_nearestUnits_eq {a b : Int} (ha : Number.FitsWord a)
    (hb : Number.FitsWord b) (h : nearestUnits a = nearestUnits b) :
    (a - b).natAbs ≤ 2 ^ (11 : Nat) := by
  obtain ⟨hal, hau⟩ := ha
  obtain ⟨hbl, hbu⟩ := hb
  have hae := nearestUnits_error (n := a) (by omega)
  have hbe := nearestUnits_error (n := b) (by omega)
  have hdiff : ((a - b) * unitsPerOne).natAbs ≤ 2 ^ (11 : Nat) * unitsPerOne := by
    rw [Int.sub_mul]
    generalize nearestUnits a = u at h hae
    generalize a * unitsPerOne = v at hae ⊢
    generalize b * unitsPerOne = w at hbe ⊢
    generalize unitsPerOne = one at hae hbe ⊢
    omega
  rw [Int.natAbs_mul, Int.natAbs_natCast] at hdiff
  exact Nat.le_of_mul_le_mul_right hdiff unitsPerOne_pos

theorem ofInt_of_fitsWord {n : Int} (h : Number.FitsWord n) :
    ∃ x : Finite, ofInt n = .finite x ∧ x.negative = decide (n < 0) ∧ x.units = nearestUnits n := by
  obtain ⟨hlower, hupper⟩ := h
  have hscale : scaleFor (n.natAbs * unitsPerOne) ≤ 1074 + 11 :=
    scaleFor_whole_le (by omega)
  have hroom : scaleFor (n.natAbs * unitsPerOne) ≤ 2044 := by omega
  obtain ⟨x, hx, hnegative, hmagnitude⟩ := ofRatio_one (decide (n < 0)) hroom
  refine ⟨x, by rw [ofInt, hx], hnegative, ?_⟩
  simp only [Finite.units, nearestUnits, hnegative, hmagnitude, decide_eq_true_eq]

/-- Two integers have the same nearest number exactly if it has the same units: those of zero belong to
zero alone, so that no two signs of zero meet. -/
theorem ofInt_eq_iff {a b : Int} (ha : Number.FitsWord a) (hb : Number.FitsWord b) :
    ofInt a = ofInt b ↔ nearestUnits a = nearestUnits b := by
  obtain ⟨x, hx, hxs, hxu⟩ := ofInt_of_fitsWord ha
  obtain ⟨y, hy, hys, hyu⟩ := ofInt_of_fitsWord hb
  rw [hx, hy, finite.injEq, ← hxu, ← hyu]
  refine ⟨congrArg Finite.units, fun h => Finite.ext_units ?_ h⟩
  have hsign : a < 0 ↔ b < 0 := by
    rw [← nearestUnits_neg_iff a, ← nearestUnits_neg_iff b, ← hxu, ← hyu, h]
  rw [hxs, hys, decide_eq_decide.2 hsign]

end Binary64

namespace Number

theorem compare?_int {a b : Int} (ha : FitsWord a) (hb : FitsWord b) :
    (int a).compare? (int b) =
      some (if Binary64.ofInt a = Binary64.ofInt b then .eq else compare a b) := by
  obtain ⟨x, hx, -, hxu⟩ := Binary64.ofInt_of_fitsWord ha
  obtain ⟨y, hy, -, hyu⟩ := Binary64.ofInt_of_fitsWord hb
  have hunits : (int a).compare? (int b) =
      some (compare (Binary64.nearestUnits a) (Binary64.nearestUnits b)) := by
    show (Binary64.ofInt a).compare? (Binary64.ofInt b) = _
    rw [hx, hy, ← hxu, ← hyu, Binary64.compare?]
  rw [hunits]
  congr 1
  split
  · next h => exact Int.compare_eq_eq.2 ((Binary64.ofInt_eq_iff ha hb).1 h)
  · next h =>
    have hne := mt (Binary64.ofInt_eq_iff ha hb).2 h
    obtain hlt | rfl | hlt := Int.lt_trichotomy a b
    · have := Binary64.nearestUnits_mono (Int.le_of_lt hlt)
      rw [Int.compare_eq_lt.2 hlt, Int.compare_eq_lt]
      exact Int.lt_iff_le_and_ne.2 ⟨this, hne⟩
    · exact absurd rfl hne
    · have := Binary64.nearestUnits_mono (Int.le_of_lt hlt)
      rw [Int.compare_eq_gt.2 hlt, Int.compare_eq_gt]
      exact Int.lt_iff_le_and_ne.2 ⟨this, Ne.symm hne⟩

end Number

end Stencil
