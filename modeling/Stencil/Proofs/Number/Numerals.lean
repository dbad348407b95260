import Stencil.Eval.Operators
import Stencil.Proofs.Number.Shortest
set_option autoImplicit false

/-!
# Numerals

The text of a number is a numeral: a sign, digits, and digits behind a point if the number is not whole. No
digit of it could be spared. Main statement: `Number.text_canonical`.
-/

namespace Stencil

-- A comparison of two terms that stay as they are would compute the power.
attribute [local irreducible] Binary64.unitsPerOne

namespace Decimal

theorem digitChar_eq_zero_iff {d : ℕ} (h : d < 10) : digitChar d = '0' ↔ d = 0 := by
  constructor
  · intro hzero
    rw [← digitValue_digitChar h, hzero]
    decide
  · rintro rfl
    rfl

theorem getLast?_digits (n : ℕ) : (digits n).getLast? = some (digitChar (n % 10)) := by
  rw [digits]
  split
  · next h => rw [Nat.mod_eq_of_lt h, List.getLast?_singleton]
  · rw [List.getLast?_append, List.getLast?_singleton, Option.some_or]

theorem head?_digits_ne_zero {n : ℕ} (h : n ≠ 0) : (digits n).head? ≠ some '0' := by
  fun_induction digits n with
  | case1 n hlt => simpa [digitChar_eq_zero_iff hlt] using h
  | case2 n hge ih =>
    rw [List.head?_append_of_ne_nil _ (digits_ne_nil _)]
    exact ih (by omega)

theorem ofDigits_append_zeros (cs : List Char) (k : ℕ) :
    ofDigits (cs ++ List.replicate k '0') = ofDigits cs * 10 ^ k := by
  induction k with
  | zero => simp
  | succ k ih =>
    rw [List.replicate_succ', ← List.append_assoc, ofDigits_append_one, ih, pow_succ]
    have hzero : digitValue '0' = 0 := by decide
    rw [hzero]
    ring

theorem ofDigits_zeros_append (k : ℕ) (cs : List Char) :
    ofDigits (List.replicate k '0' ++ cs) = ofDigits cs := by
  have hzeros : ofDigits (List.replicate k '0') = 0 := by
    have := ofDigits_append_zeros [] k
    simpa [ofDigits] using this
  rw [ofDigits, List.foldl_append, ← ofDigits, hzeros, ofDigits]

end Decimal

/-- A number in positional notation: a sign, the digits in front of the point and those behind it. -/
structure Numeral where
  negative : Bool
  whole : List Char
  fraction : List Char

namespace Numeral

def text (t : Numeral) : String :=
  String.ofList ((if t.negative then ['-'] else []) ++ t.whole ++
    (if t.fraction = [] then [] else '.' :: t.fraction))

def value (t : Numeral) : ℚ :=
  (if t.negative then -1 else 1) * (Decimal.ofDigits (t.whole ++ t.fraction) / 10 ^ t.fraction.length)

/-- There are digits in front of the point, no zero stands at either end where it could be spared, and zero
has no sign. -/
structure Canonical (t : Numeral) : Prop where
  digits : ∀ c ∈ t.whole ++ t.fraction, Decimal.isDigit c
  whole : t.whole ≠ []
  leading : t.whole.head? = some '0' → t.whole = ['0']
  trailing : t.fraction.getLast? ≠ some '0'
  sign : t.negative → t.value ≠ 0

/-- The coefficient's digits with the point where the exponent puts it. -/
def ofDecimal (negative : Bool) (d : Decimal) : Numeral :=
  let ds := Decimal.digits d.coefficient
  let places := (-d.exponent).toNat
  if 0 ≤ d.exponent then ⟨negative, ds ++ List.replicate d.exponent.toNat '0', []⟩
  else if places < ds.length then
    ⟨negative, ds.take (ds.length - places), ds.drop (ds.length - places)⟩
  else ⟨negative, ['0'], List.replicate (places - ds.length) '0' ++ ds⟩

variable {negative : Bool} {d : Decimal}

theorem negative_ofDecimal : (ofDecimal negative d).negative = negative := by
  unfold ofDecimal
  dsimp only
  split
  · rfl
  · split <;> rfl

theorem ofDecimal_of_nonneg {k : ℕ} (h : d.exponent = k) :
    ofDecimal negative d = ⟨negative, Decimal.digits d.coefficient ++ List.replicate k '0', []⟩ := by
  simp [ofDecimal, h]

/-- All digits are those of the coefficient behind zeros, and so many of them stand behind the point. -/
theorem digits_ofDecimal_of_neg (negative : Bool) (h : d.exponent < 0) :
    (∃ k, (ofDecimal negative d).whole ++ (ofDecimal negative d).fraction =
      List.replicate k '0' ++ Decimal.digits d.coefficient) ∧
    (ofDecimal negative d).fraction.length = (-d.exponent).toNat ∧
    (ofDecimal negative d).fraction.getLast? = (Decimal.digits d.coefficient).getLast? := by
  have hne := Decimal.digits_ne_nil d.coefficient
  simp only [ofDecimal, not_le.2 h, if_false]
  split
  · next hplaces =>
    refine ⟨⟨0, by simp⟩, ?_, ?_⟩
    · rw [List.length_drop]
      omega
    · rw [List.getLast?_drop, if_neg (by omega)]
  · next hplaces =>
    refine ⟨⟨(-d.exponent).toNat - (Decimal.digits d.coefficient).length + 1, ?_⟩, ?_, ?_⟩
    · simp [List.replicate_succ]
    · simp only [List.length_append, List.length_replicate]
      omega
    · rw [List.getLast?_append_of_ne_nil _ hne]

theorem text_ofDecimal (negative : Bool) (d : Decimal) : (ofDecimal negative d).text =
    String.ofList (if negative then '-' :: Layout.plain.positionalText d
      else Layout.plain.positionalText d) := by
  have hsign (cs : List Char) :
      (if negative then ['-'] else []) ++ cs = if negative then '-' :: cs else cs := by
    cases negative <;> rfl
  have hbody : (ofDecimal negative d).whole ++ (if (ofDecimal negative d).fraction = [] then []
      else '.' :: (ofDecimal negative d).fraction) = Layout.plain.positionalText d := by
    have hplain : Layout.plain.wholeFraction = false := rfl
    simp only [ofDecimal, Layout.positionalText, hplain]
    split
    · simp
    · split
      · next hplaces =>
        have hne : (Decimal.digits d.coefficient).drop
            ((Decimal.digits d.coefficient).length - (-d.exponent).toNat) ≠ [] := by
          rw [ne_eq, List.drop_eq_nil_iff]
          omega
        simp [hne]
      · simp [Decimal.digits_ne_nil]
  rw [text, negative_ofDecimal, List.append_assoc, hbody, hsign]

theorem value_ofDecimal (negative : Bool) (d : Decimal) : (ofDecimal negative d).value =
    (if negative then -1 else 1) * (d.coefficient * 10 ^ d.exponent) := by
  rw [value, negative_ofDecimal]
  congr 1
  obtain hexponent | hexponent := Int.lt_or_le d.exponent 0
  · obtain ⟨⟨k, hdigits⟩, hlength, -⟩ := digits_ofDecimal_of_neg negative hexponent
    obtain ⟨j, hj⟩ : ∃ j : ℕ, d.exponent = -j := ⟨(-d.exponent).toNat, by omega⟩
    rw [hdigits, hlength, Decimal.ofDigits_zeros_append, Decimal.ofDigits_digits, hj]
    simp [div_eq_mul_inv]
  · obtain ⟨k, hk⟩ := Int.eq_ofNat_of_zero_le hexponent
    rw [ofDecimal_of_nonneg hk, hk]
    simp [Decimal.ofDigits_append_zeros, Decimal.ofDigits_digits]

theorem fraction_ofDecimal : (ofDecimal negative d).fraction ≠ [] ↔ d.exponent < 0 := by
  obtain hexponent | hexponent := Int.lt_or_le d.exponent 0
  · obtain ⟨-, hlength, -⟩ := digits_ofDecimal_of_neg negative hexponent
    refine iff_of_true (List.length_pos_iff.1 ?_) hexponent
    omega
  · obtain ⟨k, hk⟩ := Int.eq_ofNat_of_zero_le hexponent
    rw [ofDecimal_of_nonneg hk]
    exact iff_of_false (fun h => h rfl) (not_lt.2 hexponent)

theorem isDigit_ofDecimal {c : Char}
    (h : c ∈ (ofDecimal negative d).whole ++ (ofDecimal negative d).fraction) :
    Decimal.isDigit c := by
  have hzeros {k : ℕ} (h : c ∈ List.replicate k '0') : Decimal.isDigit c := by
    rw [List.eq_of_mem_replicate h]
    decide
  obtain hexponent | hexponent := Int.lt_or_le d.exponent 0
  · obtain ⟨⟨k, hdigits⟩, -⟩ := digits_ofDecimal_of_neg negative hexponent
    rw [hdigits] at h
    exact (List.mem_append.1 h).elim hzeros (Decimal.isDigit_of_mem_digits c)
  · obtain ⟨k, hk⟩ := Int.eq_ofNat_of_zero_le hexponent
    rw [ofDecimal_of_nonneg hk, List.append_nil] at h
    exact (List.mem_append.1 h).elim (Decimal.isDigit_of_mem_digits c) hzeros

theorem whole_ofDecimal (negative : Bool) (hzero : d.coefficient = 0 → d.exponent = 0) :
    (ofDecimal negative d).whole ≠ [] ∧
      ((ofDecimal negative d).whole.head? = some '0' → (ofDecimal negative d).whole = ['0']) := by
  have hne := Decimal.digits_ne_nil d.coefficient
  obtain hexponent | hexponent := Int.lt_or_le d.exponent 0
  · have hhead : (Decimal.digits d.coefficient).head? ≠ some '0' :=
      Decimal.head?_digits_ne_zero fun h => by omega
    simp only [ofDecimal, not_le.2 hexponent, if_false]
    split
    · next hplaces =>
      refine ⟨fun hnil => ?_, fun h => ?_⟩
      · obtain hnil | hnil := List.take_eq_nil_iff.1 hnil
        · omega
        · exact hne hnil
      · rw [List.head?_take, if_neg (by omega)] at h
        exact absurd h hhead
    · exact ⟨List.cons_ne_nil _ _, fun _ => rfl⟩
  · obtain ⟨k, hk⟩ := Int.eq_ofNat_of_zero_le hexponent
    rw [ofDecimal_of_nonneg hk]
    refine ⟨List.append_ne_nil_of_left_ne_nil hne _, fun h => ?_⟩
    dsimp only at h ⊢
    rw [List.head?_append_of_ne_nil _ hne] at h
    have hcoefficient : d.coefficient = 0 := not_not.1 fun hne => Decimal.head?_digits_ne_zero hne h
    have hk0 : k = 0 := by have := hzero hcoefficient; omega
    rw [hcoefficient, hk0, List.replicate_zero, List.append_nil, Decimal.digits, if_pos (by decide)]
    rfl

theorem canonical_ofDecimal (hzero : d.coefficient = 0 → d.exponent = 0)
    (hlast : d.exponent < 0 → ¬ 10 ∣ d.coefficient) (hsign : negative → d.coefficient ≠ 0) :
    (ofDecimal negative d).Canonical := by
  obtain ⟨hwhole, hleading⟩ := whole_ofDecimal negative hzero
  refine ⟨fun c => isDigit_ofDecimal, hwhole, hleading, fun hend => ?_, fun hnegative => ?_⟩
  · have hexponent : d.exponent < 0 := fraction_ofDecimal.1 fun hnil => by
      rw [hnil] at hend
      cases hend
    obtain ⟨-, -, htrailing⟩ := digits_ofDecimal_of_neg negative hexponent
    rw [htrailing, Decimal.getLast?_digits, Option.some_inj,
      Decimal.digitChar_eq_zero_iff (Nat.mod_lt _ (by decide))] at hend
    exact hlast hexponent (Nat.dvd_of_mod_eq_zero hend)
  · rw [negative_ofDecimal] at hnegative
    have hcoefficient : (d.coefficient : ℚ) ≠ 0 := by exact_mod_cast hsign hnegative
    have hpower : (10 : ℚ) ^ d.exponent ≠ 0 := zpow_ne_zero _ (by norm_num)
    rw [value_ofDecimal, if_pos hnegative]
    exact mul_ne_zero (by norm_num) (mul_ne_zero hcoefficient hpower)

end Numeral

/-- The number is printed as this numeral. It has digits behind the point exactly if the number is not whole,
the numeral of an integer and of a whole float below `2 ^ 63` in size denotes the number itself, and no float
is nearer to what the numeral denotes than the number. -/
structure Numeral.Writes (t : Numeral) (n : Number) : Prop where
  print : (Value.number n).print = .ok t.text
  canonical : t.Canonical
  fraction : t.fraction ≠ [] ↔ ¬ ∃ k : ℤ, n.value = k
  exact : ∀ k : ℤ, n.value = k → (n = .int k ∨ k.natAbs < 2 ^ 63) → t.value = k
  nearest : ∀ x : Binary64.Finite, |t.value - n.value| ≤ |t.value - x.value|

namespace Number

open Binary64

def wholeNumeral (k : ℤ) : Numeral := .ofDecimal (k < 0) ⟨k.natAbs, 0⟩

theorem text_wholeNumeral (k : ℤ) : (wholeNumeral k).text = Decimal.intText k := by
  rw [wholeNumeral, Numeral.text_ofDecimal, Decimal.intText]
  simp [Layout.positionalText, Layout.plain]

theorem value_wholeNumeral (k : ℤ) : (wholeNumeral k).value = k := by
  rw [wholeNumeral, Numeral.value_ofDecimal]
  obtain h | h := lt_or_ge k 0
  · simp [h, abs_of_neg]
  · simp [not_lt.2 h, abs_of_nonneg h]

theorem wholeNumeral_writes {n : Number} {k : ℤ} (hvalue : n.value = k)
    (htext : n.text = Decimal.intText k) : (wholeNumeral k).Writes n where
  print := by
    rw [text_wholeNumeral, ← htext]
    rfl
  canonical := by
    refine Numeral.canonical_ofDecimal (fun _ => rfl) (fun h => absurd h (lt_irrefl 0)) fun h => ?_
    exact Int.natAbs_ne_zero.2 (of_decide_eq_true h).ne
  fraction := by
    refine iff_of_false (fun h => ?_) (not_not.2 ⟨k, hvalue⟩)
    exact absurd (Numeral.fraction_ofDecimal.1 h) (lt_irrefl 0)
  exact j hj _ := by rw [value_wholeNumeral, ← hvalue, hj]
  nearest x := by
    rw [value_wholeNumeral, hvalue, sub_self, abs_zero]
    exact abs_nonneg _

section

variable {x : Finite} (hx : ¬ x.isWord)

include hx

theorem significand_ne_zero : x.significand ≠ 0 := by
  intro hzero
  refine hx (Finite.isWord_iff.2 ⟨0, ?_, by decide⟩)
  rw [Finite.value_eq_intCast_iff, Finite.units, Finite.magnitude, hzero]
  simp

theorem shortest_writes :
    (Numeral.ofDecimal x.negative (x.shortest .up)).Writes (.float x) where
  print := by
    have htext : text (.float x) = Layout.plain.finiteText x := if_neg hx
    have hdigits : Layout.plain.magnitudeText x = Layout.plain.positionalText (x.shortest .up) := by
      rw [Layout.magnitudeText, if_neg (significand_ne_zero hx)]
      rfl
    rw [Numeral.text_ofDecimal, ← hdigits, ← Layout.finiteText, ← htext]
    rfl
  canonical := by
    have hne := Finite.shortest_coefficient_ne_zero (significand_ne_zero hx) .up
    exact Numeral.canonical_ofDecimal (fun h => absurd h hne)
      (Finite.not_ten_dvd_shortest (significand_ne_zero hx)) fun _ => hne
  fraction := Numeral.fraction_ofDecimal.trans
    (Finite.shortest_exponent_neg_iff (significand_ne_zero hx))
  exact k hk h := by
    obtain h | h := h
    · cases h
    · exact absurd (Finite.isWord_iff.2 ⟨k, hk, h⟩) hx
  nearest y := by
    rw [Numeral.value_ofDecimal]
    exact Finite.abs_shortest_sub_value_le (significand_ne_zero hx) .up y

end

/-- Every number prints as a canonical numeral. -/
theorem text_canonical (n : Number) : ∃ t : Numeral, t.Writes n := by
  cases n with
  | int k => exact ⟨_, wholeNumeral_writes rfl rfl⟩
  | float x =>
    by_cases hword : x.isWord
    · obtain ⟨k, hk, -⟩ := Finite.isWord_iff.1 hword
      refine ⟨_, wholeNumeral_writes hk ?_⟩
      rw [text, if_pos hword, Finite.truncate_of_value hk]
    · exact ⟨_, shortest_writes hword⟩

example : (Number.float (.zero true)).text = "0" := by decide +kernel

end Number

end Stencil
