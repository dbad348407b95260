import Stencil.Number.Decimal
set_option autoImplicit false

namespace Stencil

-- Powers are core's, whatever else is imported. A numeral as exponent needs its type for that.
attribute [local instance (high)] instPowNat

inductive Number where
  | int (value : Int)
  | float (value : Binary64.Finite)
  deriving DecidableEq, Repr

namespace Binary64.Finite

/-- A whole number below `2 ^ 63` in size. -/
def isWord (x : Binary64.Finite) : Bool :=
  x.isIntegral && x.magnitude < 2 ^ (63 : Nat) * unitsPerOne

end Binary64.Finite

namespace Number

def FitsWord (n : Int) : Prop := -2 ^ (63 : Nat) ≤ n ∧ n < 2 ^ (64 : Nat)

instance (n : Int) : Decidable (FitsWord n) := inferInstanceAs (Decidable (_ ∧ _))

def toBinary64 : Number → Binary64
  | .int n => .ofInt n
  | .float x => .finite x

/-- The number with this value; infinities and `nan` have none. -/
def ofBinary64? : Binary64 → Option Number
  | .finite x => some (if x.isWord then .int x.truncate else .float x)
  | _ => none

theorem ofBinary64?_eq_none_iff (x : Binary64) : ofBinary64? x = none ↔ x.isFinite = false := by
  cases x <;> simp [ofBinary64?, Binary64.isFinite]

/-- Lengths and positions are machine words. -/
def ofCount (n : Nat) : Number := .int n.toUInt64.toNat

def isZero : Number → Bool
  | .int n => n = 0
  | .float x => x.significand = 0

/-- The number in plain decimal digits: whole numbers without a fraction, no exponent, and zero
without a sign. -/
def text : Number → String
  | .int n => Decimal.intText n
  | .float x => if x.isWord then Decimal.intText x.truncate else Layout.plain.finiteText x

/-- The number as JSON text, where a float is told from an integer by its fraction or exponent. -/
def json : Number → String
  | .int n => Decimal.intText n
  | .float x => Layout.json.finiteText x

def compare? (a b : Number) : Option Ordering := a.toBinary64.compare? b.toBinary64

def same (a b : Number) : Bool := a.toBinary64.same b.toBinary64

end Number

end Stencil
