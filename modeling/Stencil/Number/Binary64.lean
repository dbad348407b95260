set_option autoImplicit false

/-!
# Binary64

The floating point numbers of 64 bits. A finite one is a sign, a significand below `2 ^ 53` and a
scale: its magnitude is `significand * 2 ^ scale` units, where one unit is the least positive
number, `2 ^ -1074`. So every finite number is a whole number of units, a comparison is one of
whole numbers, and an operation is the exact result rounded once, a half going to the even
significand. Main statement: `Finite.ext_units`, the sign and the units determine the number.
-/

namespace Stencil

-- Powers are core's, whatever else is imported. A numeral as exponent needs its type for that.
attribute [local instance (high)] instPowNat

namespace Binary64

/-- One unit is `2 ^ -1074`, so this many units make one. -/
def unitsPerOne : Nat := 2 ^ (1074 : Nat)

/-- Significand and scale of one finite number: the scale is zero or the significand has all its
53 bits, so no number has two forms. -/
def Canonical (significand scale : Nat) : Prop :=
  significand < 2 ^ (53 : Nat) ∧ scale ≤ 2045 ∧ (scale = 0 ∨ 2 ^ (52 : Nat) ≤ significand)

instance (significand scale : Nat) : Decidable (Canonical significand scale) :=
  inferInstanceAs (Decidable (_ ∧ _ ∧ _))

structure Finite where
  negative : Bool
  significand : Nat
  scale : Nat
  canonical : Canonical significand scale
  deriving DecidableEq, Repr

namespace Finite

def magnitude (x : Finite) : Nat := x.significand * 2 ^ x.scale

def units (x : Finite) : Int := if x.negative then -(x.magnitude : Int) else x.magnitude

def zero (negative : Bool) : Finite := ⟨negative, 0, 0, by decide⟩

def neg (x : Finite) : Finite := { x with negative := !x.negative }

@[simp] theorem units_zero (negative : Bool) : (zero negative).units = 0 := by
  cases negative <;> simp [zero, units, magnitude]

@[simp] theorem magnitude_neg (x : Finite) : x.neg.magnitude = x.magnitude := rfl

@[simp] theorem units_neg (x : Finite) : x.neg.units = -x.units := by
  cases h : x.negative <;> simp [units, neg, magnitude, h]

theorem neg_neg (x : Finite) : x.neg.neg = x := by simp [neg]

def isIntegral (x : Finite) : Bool := x.magnitude % unitsPerOne = 0

def truncate (x : Finite) : Int :=
  if x.negative then -((x.magnitude / unitsPerOne : Nat) : Int) else (x.magnitude / unitsPerOne : Nat)

theorem lt_of_scale_lt {m n s t : Nat} (hm : m < 2 ^ (53 : Nat)) (hn : 2 ^ (52 : Nat) ≤ n)
    (h : s < t) : m * 2 ^ s < n * 2 ^ t := by
  obtain ⟨d, rfl⟩ := Nat.exists_eq_add_of_lt h
  have hpos : 0 < 2 ^ s := Nat.pow_pos (by decide)
  have hd : 1 ≤ 2 ^ d := Nat.one_le_two_pow
  calc m * 2 ^ s < 2 ^ (53 : Nat) * 2 ^ s := Nat.mul_lt_mul_of_pos_right hm hpos
    _ = 2 ^ (52 : Nat) * 2 * 1 * 2 ^ s := by simp
    _ ≤ n * 2 * 2 ^ d * 2 ^ s :=
        Nat.mul_le_mul_right _ (Nat.mul_le_mul (Nat.mul_le_mul_right _ hn) hd)
    _ = n * 2 ^ (s + d + 1) := by rw [Nat.pow_succ, Nat.pow_add]; grind

theorem ext_magnitude {x y : Finite} (hs : x.negative = y.negative)
    (hm : x.magnitude = y.magnitude) : x = y := by
  obtain ⟨a, m, s, hm1, hs1, hc1⟩ := x
  obtain ⟨b, n, t, hm2, hs2, hc2⟩ := y
  simp only [magnitude] at hs hm
  subst hs
  have hst : s = t := by
    rcases Nat.lt_trichotomy s t with h | h | h
    · have hn : 2 ^ 52 ≤ n := by omega
      have := lt_of_scale_lt hm1 hn h; omega
    · exact h
    · have hn : 2 ^ 52 ≤ m := by omega
      have := lt_of_scale_lt hm2 hn h; omega
  subst hst
  have : m = n := Nat.eq_of_mul_eq_mul_right (Nat.pow_pos (by decide)) hm
  subst this
  rfl

theorem ext_units {x y : Finite} (hs : x.negative = y.negative) (hu : x.units = y.units) :
    x = y := by
  refine ext_magnitude hs ?_
  simp only [units, hs] at hu
  split at hu <;> omega

end Finite

end Binary64

inductive Binary64 where
  | nan
  | infinite (negative : Bool)
  | finite (x : Binary64.Finite)
  deriving DecidableEq, Repr

namespace Binary64

def zero : Binary64 := .finite (.zero false)

/-- `num / den` as a whole number, a half going to the even neighbour. -/
def roundHalfEven (num den : Nat) : Nat :=
  let q := num / den
  let r := num % den
  if 2 * r < den then q else if 2 * r = den then q + q % 2 else q + 1

/-- The number of this sign, significand and scale, where a significand of `2 ^ 53` is carried
into the scale and a scale out of range gives an infinity. -/
def pack (negative : Bool) (significand scale : Nat) : Binary64 :=
  if h : Canonical significand scale then .finite ⟨negative, significand, scale, h⟩
  else if h : Canonical (significand / 2) (scale + 1) then
    .finite ⟨negative, significand / 2, scale + 1, h⟩
  else .infinite negative

/-- The scale at which a number of so many whole units keeps 53 bits. -/
def scaleFor (wholeUnits : Nat) : Nat := wholeUnits.log2 - 52

/-- The number nearest to `num / den` units. -/
def ofRatio (negative : Bool) (num den : Nat) : Binary64 :=
  let scale := scaleFor (num / den)
  pack negative (roundHalfEven num (den * 2 ^ scale)) scale

def ofUnits (units : Int) : Binary64 := ofRatio (units < 0) units.natAbs 1

def ofInt (n : Int) : Binary64 := ofRatio (n < 0) (n.natAbs * unitsPerOne) 1

def isNegative : Binary64 → Bool
  | .nan => false
  | .infinite negative => negative
  | .finite x => x.negative

def isFinite : Binary64 → Bool
  | .finite _ => true
  | _ => false

def neg : Binary64 → Binary64
  | .nan => .nan
  | .infinite negative => .infinite !negative
  | .finite x => .finite x.neg

/-- The sum; an exact zero is negative only if both summands are. -/
def add : Binary64 → Binary64 → Binary64
  | .nan, _ | _, .nan => .nan
  | .infinite a, .infinite b => if a = b then .infinite a else .nan
  | .infinite a, .finite _ | .finite _, .infinite a => .infinite a
  | .finite x, .finite y =>
    if x.units + y.units = 0 then .finite (.zero (x.negative && y.negative))
    else ofUnits (x.units + y.units)

def sub (x y : Binary64) : Binary64 := x.add y.neg

def mul : Binary64 → Binary64 → Binary64
  | .nan, _ | _, .nan => .nan
  | .infinite a, .infinite b => .infinite (a != b)
  | .infinite a, .finite x | .finite x, .infinite a =>
    if x.magnitude = 0 then .nan else .infinite (a != x.negative)
  | .finite x, .finite y =>
    ofRatio (x.negative != y.negative) (x.magnitude * y.magnitude) unitsPerOne

/-- The quotient; a number over zero is infinite, zero over zero is not a number. -/
def div : Binary64 → Binary64 → Binary64
  | .nan, _ | _, .nan | .infinite _, .infinite _ => .nan
  | .infinite a, .finite y => .infinite (a != y.negative)
  | .finite x, .infinite b => .finite (.zero (x.negative != b))
  | .finite x, .finite y =>
    if y.magnitude = 0 then
      if x.magnitude = 0 then .nan else .infinite (x.negative != y.negative)
    else ofRatio (x.negative != y.negative) (x.magnitude * unitsPerOne) y.magnitude

/-- The remainder of the quotient cut to a whole number; it has the sign of the dividend. -/
def rem : Binary64 → Binary64 → Binary64
  | .nan, _ | _, .nan | .infinite _, _ => .nan
  | .finite x, .infinite _ => .finite x
  | .finite x, .finite y =>
    if y.magnitude = 0 then .nan else ofRatio x.negative (x.magnitude % y.magnitude) 1

/-- The order of the values, in which both zeros are the same; nothing compares with `nan`. -/
def compare? : Binary64 → Binary64 → Option Ordering
  | .nan, _ | _, .nan => none
  | .infinite a, .infinite b => some (if a = b then .eq else if a then .lt else .gt)
  | .infinite a, .finite _ => some (if a then .lt else .gt)
  | .finite _, .infinite b => some (if b then .gt else .lt)
  | .finite x, .finite y => some (compare x.units y.units)

def same (x y : Binary64) : Bool := x.compare? y = some .eq

end Binary64

end Stencil
