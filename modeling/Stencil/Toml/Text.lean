import Stencil.Number.Digits
set_option autoImplicit false

namespace Stencil.Toml

-- Powers are core's, whatever else is imported. A numeral as exponent needs its type for that.
attribute [local instance (high)] instPowNat

def isSpace (c : Char) : Bool := c = ' ' || c = '\t'

def skipSpaces (cs : List Char) : List Char := cs.dropWhile isSpace

def isPlain (c : Char) : Bool := c = '\t' || (0x20 ≤ c.toNat && c.toNat ≠ 0x7F)

def lineEnd? : List Char → Option (List Char)
  | '\n' :: cs => some cs
  | '\r' :: '\n' :: cs => some cs
  | _ => none

def skipComment : List Char → List Char
  | '#' :: cs => cs.dropWhile isPlain
  | cs => cs

def endLine? (cs : List Char) : Option (List Char) :=
  match skipComment (skipSpaces cs) with
  | [] => some []
  | cs => lineEnd? cs

def skipGaps : List Char → List Char
  | '\r' :: '\n' :: cs => skipGaps cs
  | c :: cs => if isSpace c || c = '\n' then skipGaps cs else c :: cs
  | [] => []

/-- Behind the blanks, line ends and comments, a comment being open or not. -/
def skipVoid : Bool → List Char → List Char
  | _, '\r' :: '\n' :: cs => skipVoid false cs
  | _, '\n' :: cs => skipVoid false cs
  | true, c :: cs => if isPlain c then skipVoid true cs else c :: cs
  | false, '#' :: cs => skipVoid true cs
  | false, c :: cs => if isSpace c then skipVoid false cs else c :: cs
  | _, [] => []

def hexValue? (c : Char) : Option Nat :=
  if Decimal.isDigit c then some (Decimal.digitValue c)
  else if 'a' ≤ c && c ≤ 'f' then some (c.toNat - 87)
  else if 'A' ≤ c && c ≤ 'F' then some (c.toNat - 55)
  else none

def codePoint? : Nat → Nat → List Char → Option (Char × List Char)
  | 0, n, cs => if n.isValidChar then some (Char.ofNat n, cs) else none
  | _ + 1, _, [] => none
  | k + 1, n, c :: cs => (hexValue? c).bind fun d => codePoint? k (16 * n + d) cs

def escape? : List Char → Option (Char × List Char)
  | 'b' :: cs => some ('\x08', cs)
  | 't' :: cs => some ('\t', cs)
  | 'n' :: cs => some ('\n', cs)
  | 'f' :: cs => some ('\x0c', cs)
  | 'r' :: cs => some ('\r', cs)
  | '"' :: cs => some ('"', cs)
  | '\\' :: cs => some ('\\', cs)
  | 'u' :: cs => codePoint? 4 0 cs
  | 'U' :: cs => codePoint? 8 0 cs
  | _ => none

/-- Behind a backslash at the end of a line of a long text. -/
def continuation? (cs : List Char) : Option (List Char) := (lineEnd? (skipSpaces cs)).map skipGaps

/-- A text up to its closing quote. Each step of the fuel reads a character. -/
def basic? : Nat → List Char → Option (List Char × List Char)
  | 0, _ => none
  | _ + 1, '"' :: cs => some ([], cs)
  | fuel + 1, '\\' :: cs => do
    let (c, cs) ← escape? cs
    let (text, cs) ← basic? fuel cs
    return (c :: text, cs)
  | fuel + 1, c :: cs => do
    guard (isPlain c)
    let (text, cs) ← basic? fuel cs
    return (c :: text, cs)
  | _ + 1, [] => none

def longBasic? : Nat → List Char → Option (List Char × List Char)
  | 0, _ => none
  | _ + 1, '"' :: '"' :: '"' :: cs => some ([], cs)
  | fuel + 1, '\\' :: cs =>
    match continuation? cs with
    | some cs => longBasic? fuel cs
    | none => do
      let (c, cs) ← escape? cs
      let (text, cs) ← longBasic? fuel cs
      return (c :: text, cs)
  | fuel + 1, '\r' :: '\n' :: cs => do
    let (text, cs) ← longBasic? fuel cs
    return ('\n' :: text, cs)
  | fuel + 1, c :: cs => do
    guard (isPlain c || c = '\n')
    let (text, cs) ← longBasic? fuel cs
    return (c :: text, cs)
  | _ + 1, [] => none

def literal? : List Char → Option (List Char × List Char)
  | '\'' :: cs => some ([], cs)
  | c :: cs => do
    guard (isPlain c)
    let (text, cs) ← literal? cs
    return (c :: text, cs)
  | [] => none

def longLiteral? : List Char → Option (List Char × List Char)
  | '\'' :: '\'' :: '\'' :: cs => some ([], cs)
  | '\r' :: '\n' :: cs => do
    let (text, cs) ← longLiteral? cs
    return ('\n' :: text, cs)
  | c :: cs => do
    guard (isPlain c || c = '\n')
    let (text, cs) ← longLiteral? cs
    return (c :: text, cs)
  | [] => none

/-- The end of a line right behind the opening of a long text is no part of it. -/
def openLong (cs : List Char) : List Char := (lineEnd? cs).getD cs

def text? : List Char → Option (List Char × List Char)
  | '"' :: '"' :: '"' :: cs => longBasic? (cs.length + 1) (openLong cs)
  | '"' :: cs => basic? (cs.length + 1) cs
  | '\'' :: '\'' :: '\'' :: cs => longLiteral? (openLong cs)
  | '\'' :: cs => literal? cs
  | _ => none

def isBare (c : Char) : Bool := c.isAlphanum || c = '_' || c = '-'

def name? (cs : List Char) : Option (List Char × List Char) :=
  match cs with
  | '"' :: cs => basic? (cs.length + 1) cs
  | '\'' :: cs => literal? cs
  | cs => if (cs.takeWhile isBare).isEmpty then none else some (cs.takeWhile isBare, cs.dropWhile isBare)

def path? : Nat → List Char → Option (List String × List Char)
  | 0, _ => none
  | fuel + 1, cs => do
    let (name, cs) ← name? (skipSpaces cs)
    match skipSpaces cs with
    | '.' :: cs =>
      let (path, cs) ← path? fuel cs
      return (String.ofList name :: path, cs)
    | cs => return ([String.ofList name], cs)

def numeral (isDigit : Char → Bool) : List Char → List Char × List Char
  | '_' :: c :: cs =>
    if isDigit c then
      let (ds, rest) := numeral isDigit cs
      (c :: ds, rest)
    else ([], '_' :: c :: cs)
  | c :: cs =>
    if isDigit c then
      let (ds, rest) := numeral isDigit cs
      (c :: ds, rest)
    else ([], c :: cs)
  | [] => ([], [])

/-- A natural number in digits of the base, the first of which is no underscore. -/
def natural? (base : Nat) (cs : List Char) : Option (Nat × List Char) :=
  let isDigit c := ((hexValue? c).filter (· < base)).isSome
  match cs with
  | c :: _ =>
    if isDigit c then
      let (ds, rest) := numeral isDigit cs
      some (ds.foldl (fun n d => base * n + (hexValue? d).getD 0) 0, rest)
    else none
  | [] => none

def decimal? : List Char → Option (Nat × List Char)
  | '0' :: cs => some (0, cs)
  | cs => natural? 10 cs

/-- An integer of 64 bits, a sign standing before decimal digits only. -/
def integer? (cs : List Char) : Option (Int × List Char) := do
  let (n, rest) ← match cs with
    | '0' :: 'x' :: cs => natural? 16 cs
    | '0' :: 'o' :: cs => natural? 8 cs
    | '0' :: 'b' :: cs => natural? 2 cs
    | '+' :: cs => decimal? cs
    | '-' :: cs => decimal? cs
    | cs => decimal? cs
  let value : Int := if cs.head? = some '-' then -n else n
  guard (-2 ^ (63 : Nat) ≤ value ∧ value < 2 ^ (63 : Nat))
  return (value, rest)

end Stencil.Toml
