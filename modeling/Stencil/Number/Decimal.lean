import Stencil.Number.Binary64
import Stencil.Number.Digits
set_option autoImplicit false

/-!
# Decimal text of binary64 numbers

A finite number is written with the point of the coarsest decimal grid that still reads back as
that number, and with the nearest one where two do. Which side an exact half takes, where
positional notation ends and whether a whole number keeps a fraction is up to a `Layout`.
A decimal is read as the number nearest to it.
-/

namespace Stencil

-- Powers are core's, whatever else is imported. A numeral as exponent needs its type for that.
attribute [local instance (high)] instPowNat

structure Decimal where
  coefficient : Nat
  exponent : Int
  deriving DecidableEq, Repr

inductive Tie where
  | up
  | toEven
  deriving DecidableEq, Repr

namespace Binary64

/-- The magnitudes nearer to one number than to its neighbours, in quarters of a unit; the ends
belong to it where its significand is even. -/
structure Window where
  lower : Nat
  value : Nat
  upper : Nat
  closed : Bool
  deriving DecidableEq, Repr

namespace Window

def ofFinite (x : Finite) : Window where
  value := 4 * x.magnitude
  upper := 4 * x.magnitude + 2 * 2 ^ x.scale
  lower := 4 * x.magnitude -
    (if x.significand = 2 ^ (52 : Nat) ∧ x.scale ≠ 0 then 2 ^ x.scale else 2 * 2 ^ x.scale)
  closed := x.significand % 2 = 0

/-- The step of the grid `10 ^ exponent` as a fraction in quarters of a unit. -/
def step (exponent : Int) : Nat × Nat :=
  if 0 ≤ exponent then (10 ^ exponent.toNat * (4 * unitsPerOne), 1)
  else (4 * unitsPerOne, 10 ^ (-exponent).toNat)

def holds (w : Window) (exponent : Int) (coefficient : Nat) : Bool :=
  let (num, den) := step exponent
  let point := coefficient * num
  if w.closed then w.lower * den ≤ point && point ≤ w.upper * den
  else w.lower * den < point && point < w.upper * den

/-- Of the two neighbours of the value on the grid the nearer one that lies in the window. -/
def nearest? (w : Window) (tie : Tie) (exponent : Int) : Option Nat :=
  let (num, den) := step exponent
  let below := w.value * den / num
  let above := below + 1
  match w.holds exponent below, w.holds exponent above with
  | false, false => none
  | true, false => some below
  | false, true => some above
  | true, true =>
    match compare (2 * w.value * den) ((below + above) * num) with
    | .lt => some below
    | .gt => some above
    | .eq => match tie with
      | .up => some above
      | .toEven => some (if below % 2 = 0 then below else above)

/-- The first grid with a point in the window, from `10 ^ exponent` to finer ones. -/
def coarsest (w : Window) (tie : Tie) : (grids : Nat) → (exponent : Int) → Option Decimal
  | 0, _ => none
  | grids + 1, exponent =>
    match w.nearest? tie exponent with
    | some coefficient => some ⟨coefficient, exponent⟩
    | none => w.coarsest tie grids (exponent - 1)

end Window

/-- The shortest decimal that reads back as the number's magnitude, which is not zero. All finite
numbers are below `10 ^ 309` and the grid `10 ^ -324` is finer than one unit. -/
def Finite.shortest (x : Finite) (tie : Tie) : Decimal :=
  ((Window.ofFinite x).coarsest tie 634 309).getD ⟨0, 0⟩

end Binary64

/-- How numbers are laid out: the side of an exact half, the decimal exponents written without an
exponent part, and whether a whole number shows a fraction. -/
structure Layout where
  tie : Tie
  positional : Int → Bool
  wholeFraction : Bool

namespace Layout

def plain : Layout := ⟨.up, fun _ => true, false⟩

def json : Layout := ⟨.toEven, fun e => -5 ≤ e && e < 16, true⟩

def positionalText (f : Layout) (d : Decimal) : List Char :=
  let ds := Decimal.digits d.coefficient
  if 0 ≤ d.exponent then
    ds ++ List.replicate d.exponent.toNat '0' ++ (if f.wholeFraction then ['.', '0'] else [])
  else
    let places := (-d.exponent).toNat
    if places < ds.length then
      ds.take (ds.length - places) ++ '.' :: ds.drop (ds.length - places)
    else '0' :: '.' :: List.replicate (places - ds.length) '0' ++ ds

def scientificText (d : Decimal) : List Char :=
  let ds := Decimal.digits d.coefficient
  let e := d.exponent + (ds.length - 1 : Nat)
  ds.take 1 ++ (if ds.length = 1 then [] else '.' :: ds.drop 1) ++
    'e' :: (if e < 0 then '-' else '+') :: Decimal.digits e.natAbs

def magnitudeText (f : Layout) (x : Binary64.Finite) : List Char :=
  if x.significand = 0 then if f.wholeFraction then ['0', '.', '0'] else ['0']
  else
    let d := x.shortest f.tie
    let e := d.exponent + ((Decimal.digits d.coefficient).length - 1 : Nat)
    if f.positional e then f.positionalText d else scientificText d

def finiteText (f : Layout) (x : Binary64.Finite) : String :=
  String.ofList (if x.negative then '-' :: f.magnitudeText x else f.magnitudeText x)

def text (f : Layout) : Binary64 → String
  | .nan => "NaN"
  | .infinite negative => if negative then "-inf" else "inf"
  | .finite x => f.finiteText x

end Layout

namespace Binary64

/-- The number nearest to a decimal. Past the exponents tested first the answer is an infinity or
zero, whatever the coefficient. -/
def ofDecimal (negative : Bool) (d : Decimal) : Binary64 :=
  if d.coefficient = 0 then .finite (.zero negative)
  else if 400 < d.exponent then .infinite negative
  else if d.exponent + (Decimal.digits d.coefficient).length < -400 then .finite (.zero negative)
  else if 0 ≤ d.exponent then
    ofRatio negative (d.coefficient * 10 ^ d.exponent.toNat * unitsPerOne) 1
  else ofRatio negative (d.coefficient * unitsPerOne) (10 ^ (-d.exponent).toNat)

def ofDigits (negative : Bool) (whole fraction : List Char) (exponent : Int) : Binary64 :=
  ofDecimal negative ⟨Decimal.ofDigits (whole ++ fraction), exponent - fraction.length⟩

def exponent? : List Char → Option Int
  | [] => some 0
  | e :: cs =>
    if e = 'e' || e = 'E' then
      let (negative, ds) := match cs with
        | '-' :: ds => (true, ds)
        | '+' :: ds => (false, ds)
        | ds => (false, ds)
      if ds ≠ [] && ds.all Decimal.isDigit then
        some (if negative then -(Decimal.ofDigits ds : Int) else Decimal.ofDigits ds)
      else none
    else none

def magnitude? (negative : Bool) (cs : List Char) : Option Binary64 :=
  let whole := cs.takeWhile Decimal.isDigit
  let rest := cs.dropWhile Decimal.isDigit
  let (fraction, rest) := match rest with
    | '.' :: more => (more.takeWhile Decimal.isDigit, more.dropWhile Decimal.isDigit)
    | _ => ([], rest)
  if whole ++ fraction = [] then none
  else (exponent? rest).map (ofDigits negative whole fraction)

def ofText? (cs : List Char) : Option Binary64 :=
  let (negative, body) := match cs with
    | '-' :: body => (true, body)
    | '+' :: body => (false, body)
    | body => (false, body)
  let word := String.ofList (body.map Char.toLower)
  if word = "nan" then some .nan
  else if word = "inf" || word = "infinity" then some (.infinite negative)
  else magnitude? negative body

end Binary64

end Stencil
