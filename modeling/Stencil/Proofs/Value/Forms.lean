import Stencil.Eval.Operators
import Stencil.Proofs.Number.Values
set_option autoImplicit false

/-!
# The two forms of an integer

An integer that binary64 can hold has two forms, the integer and the float of its value. They print, count
as true, compare and index alike, and the float as a result is held as the integer. Only `-2 ^ 63` is an
integer of 64 bits whose float stays a float, with a text of its own. Main statement:
`Value.forms_alike`.
-/

namespace Stencil

namespace Value

variable {n : ℤ} {x : Binary64.Finite}

theorem position?_of_value {m : Number} (hm : m.toBinary64 = .finite x) (hx : x.value = n) :
    position? m = if 0 ≤ n then some n.toNat else none := by
  have hintegral : x.isIntegral = true := Binary64.Finite.isIntegral_iff.2 ⟨n, hx⟩
  have hsign : 0 ≤ x.units ↔ 0 ≤ n := by
    rw [Binary64.Finite.value_eq_intCast_iff.1 hx]
    exact mul_nonneg_iff_of_pos_right (by exact_mod_cast Binary64.unitsPerOne_pos)
  rw [position?, hm]
  simp only [hintegral, Binary64.Finite.truncate_of_value hx, Bool.true_and, decide_eq_true_iff, hsign]

theorem isTruthy_of_value (hx : x.value = n) :
    (number (.float x)).isTruthy = (number (.int n)).isTruthy := by
  have hzero : x.significand = 0 ↔ n = 0 := by
    have hmagnitude := Binary64.Finite.magnitude_of_value hx
    calc x.significand = 0 ↔ x.magnitude = 0 := by simp [Binary64.Finite.magnitude]
      _ ↔ n.natAbs = 0 := by simp [hmagnitude, Binary64.unitsPerOne_pos.ne']
      _ ↔ n = 0 := Int.natAbs_eq_zero
  simp only [isTruthy, Number.isZero, hzero]

theorem ofBinary64_of_value (hx : x.value = n) (hn : n.natAbs < 2 ^ 63) (origin : Origin) :
    ofBinary64 origin (.finite x) = .ok (number (.int n)) := by
  rw [ofBinary64, Number.ofBinary64?_whole hx hn]

theorem print_of_value (hx : x.value = n) (hn : n.natAbs < 2 ^ 63) :
    (number (.float x)).print = (number (.int n)).print := by
  have hword : x.isWord = true := Binary64.Finite.isWord_iff.2 ⟨n, hx, hn⟩
  simp only [print, text?, Number.text, hword, if_true, Binary64.Finite.truncate_of_value hx]

/-- The float of the least integer of 64 bits. -/
def leastWord : Binary64.Finite := ⟨true, 4503599627370496, 1085, by decide⟩

theorem value_leastWord : leastWord.value = ((-2 ^ 63 : ℤ) : ℚ) := by
  rw [Binary64.Finite.value_eq_intCast_iff]
  decide +kernel

theorem eq_leastWord (hx : x.value = ((-2 ^ 63 : ℤ) : ℚ)) : x = leastWord := by
  have hunits : x.units = leastWord.units := by
    rw [Binary64.Finite.value_eq_intCast_iff.1 hx, Binary64.Finite.value_eq_intCast_iff.1 value_leastWord]
  have hnegative : x.units < 0 := by
    rw [Binary64.Finite.value_eq_intCast_iff.1 hx]
    exact mul_neg_of_neg_of_pos (by decide) (by exact_mod_cast Binary64.unitsPerOne_pos)
  exact Binary64.Finite.ext_units (Binary64.Finite.negative_of_units_neg hnegative) hunits

theorem ofBinary64?_leastWord :
    Number.ofBinary64? (.finite leastWord) = some (.float leastWord) := by decide +kernel

theorem print_leastWord :
    (number (.float leastWord)).print = .ok "-9223372036854776000" := by decide +kernel

theorem print_least : (number (.int (-2 ^ 63))).print = .ok "-9223372036854775808" := by
  decide +kernel

/-- An integer of 64 bits that binary64 can hold, and a float of its value. But for `-2 ^ 63` the float as a
result is held as the integer and both have the same text. The float of `-2 ^ 63` stays one and is printed
with its shortest digits. Without exception both count as true alike, are equal in either order, compare as
equal and name the same item of every array. -/
theorem forms_alike (hlower : -2 ^ 63 ≤ n) (hupper : n < 2 ^ 63) (hx : x.value = n) :
    let whole := number (.int n)
    let float := number (.float x)
    (n ≠ -2 ^ 63 → (∀ origin, ofBinary64 origin (.ofInt n) = .ok whole ∧
      ofBinary64 origin (.finite x) = .ok whole) ∧ float.print = whole.print) ∧
    (n = -2 ^ 63 → (∀ origin, ofBinary64 origin (.ofInt n) = .ok float) ∧
      whole.print = .ok "-9223372036854775808" ∧ float.print = .ok "-9223372036854776000") ∧
    float.isTruthy = whole.isTruthy ∧ float.equal whole ∧ whole.equal float ∧
    float.compare? whole = some .eq ∧
    ∀ items, (array items).index float = (array items).index whole := by
  intro whole float
  obtain ⟨y, hy, hyvalue⟩ := Binary64.Finite.ofInt_of_value ⟨hlower, by omega⟩ hx
  have hunits : x.units = y.units := by
    rw [Binary64.Finite.value_eq_intCast_iff.1 hx, Binary64.Finite.value_eq_intCast_iff.1 hyvalue]
  have horder : (Binary64.finite x).compare? (.ofInt n) = some .eq ∧
      (Binary64.ofInt n).compare? (.finite x) = some .eq := by
    rw [hy, Binary64.compare?, Binary64.compare?, hunits, Int.compare_eq_eq.2 rfl]
    exact ⟨rfl, rfl⟩
  refine ⟨fun hne => ?_, ?_, isTruthy_of_value hx, ?_, ?_, horder.1, fun items => ?_⟩
  · have hn : n.natAbs < 2 ^ 63 := by omega
    refine ⟨fun origin => ⟨?_, ofBinary64_of_value hx hn origin⟩, print_of_value hx hn⟩
    rw [hy]
    exact ofBinary64_of_value hyvalue hn origin
  · rintro rfl
    obtain rfl := eq_leastWord hx
    obtain rfl := eq_leastWord hyvalue
    refine ⟨fun origin => ?_, print_least, print_leastWord⟩
    rw [hy, ofBinary64, ofBinary64?_leastWord]
  · rw [equal]
    exact decide_eq_true horder.1
  · rw [equal]
    exact decide_eq_true horder.2
  · have hposition : position? (.float x) = position? (.int n) := by
      rw [position?_of_value (m := .float x) rfl hx, position?_of_value (m := .int n) hy hyvalue]
    simp only [float, whole, index, hposition]

theorem next_to_least_alike :
    let x : Binary64.Finite := ⟨true, 9007199254740991, 1084, by decide⟩
    x.value = ((-9223372036854774784 : ℤ) : ℚ) ∧
    ofBinary64 (.unary .neg) (.finite x) = .ok (number (.int (-9223372036854774784))) ∧
    (number (.float x)).print = (number (.int (-9223372036854774784))).print ∧
    (number (.float x)).equal (number (.int (-9223372036854774784))) ∧
    (array [null]).index (number (.float x)) =
      (array [null]).index (number (.int (-9223372036854774784))) := by
  intro x
  have hx : x.value = ((-9223372036854774784 : ℤ) : ℚ) := by
    rw [Binary64.Finite.value_eq_intCast_iff]
    decide +kernel
  obtain ⟨hwhole, -, -, hequal, -, -, hindex⟩ := forms_alike (by decide) (by decide) hx
  obtain ⟨hresult, hprint⟩ := hwhole (by decide)
  exact ⟨hx, (hresult _).2, hprint, hequal, hindex _⟩

/-- The least integer of 64 bits can be held by binary64, and a result of that value is not held as the
integer, nor is it printed as the integer is. -/
theorem least_stays_float :
    leastWord.value = ((-2 ^ 63 : ℤ) : ℚ) ∧
    ofBinary64 (.unary .pos) (.ofInt (-2 ^ 63)) = .ok (number (.float leastWord)) ∧
    ofBinary64 (.unary .pos) (.ofInt (-2 ^ 63)) ≠ .ok (number (.int (-2 ^ 63))) ∧
    (number (.float leastWord)).print ≠ (number (.int (-2 ^ 63))).print := by
  have hresult : ofBinary64 (.unary .pos) (.ofInt (-2 ^ 63)) = .ok (number (.float leastWord)) := by
    have hnearest : Binary64.ofInt (-2 ^ 63) = .finite leastWord := by decide +kernel
    rw [hnearest, ofBinary64, ofBinary64?_leastWord]
  refine ⟨value_leastWord, hresult, ?_, ?_⟩
  · rw [hresult]
    simp
  · rw [print_leastWord, print_least]
    decide

end Value

end Stencil
