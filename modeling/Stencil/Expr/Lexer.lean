import Stencil.Expr.Token
import Stencil.Text.Blank
set_option autoImplicit false

/-!
# Reading tokens

A token is the longest text that one of the rules takes. What no rule takes becomes an error token
of one character, a string that never ends an error token of its own extent, and reading goes on
behind it. Main statement: `munch_le`, a token lies within the text.
-/

namespace Stencil.Expr

open Text

def isNameStart (c : Char) : Bool := c.isAlpha || c = '_' || c = '$'

def isNamePart (c : Char) : Bool := c.isAlphanum || c = '_' || c = '$'

def keyword? : List Char → Option Keyword
  | ['n', 'u', 'l', 'l'] => some .null
  | ['t', 'r', 'u', 'e'] => some .true
  | ['f', 'a', 'l', 's', 'e'] => some .false
  | ['i', 'n'] => some .in
  | _ => none

/-- The characters for which a text between quotes stands: a backslash takes the next character,
which is a control character for `n`, `t`, `r` and `0`. -/
def unescape : List Char → List Char
  | [] => []
  | '\\' :: c :: cs =>
    (match c with
    | 'n' => '\n'
    | 't' => '\t'
    | 'r' => '\r'
    | '0' => '\x00'
    | _ => c) :: unescape cs
  | c :: cs => c :: unescape cs

/-- How far a string reaches behind its opening quote, and whether the closing quote, which is
then included, was met. A backslash takes the next character unless that is a line feed. -/
def stringExtent (quote : Char) : List Char → Nat × Bool
  | [] => (0, false)
  | ['\\'] => (0, false)
  | '\\' :: d :: cs =>
    if d = '\n' then (0, false)
    else
      let (n, closed) := stringExtent quote cs
      (n + 2, closed)
  | c :: cs =>
    if c = quote then (1, true)
    else
      let (n, closed) := stringExtent quote cs
      (n + 1, closed)

theorem stringExtent_le (quote : Char) (cs : List Char) : (stringExtent quote cs).1 ≤ cs.length := by
  fun_induction stringExtent quote cs <;> simp_all

/-- How far a number reaches behind its first digit: a point belongs to it before a digit. -/
def numberExtent (cs : List Char) : Nat :=
  let whole := cs.takeWhile Decimal.isDigit
  match cs.dropWhile Decimal.isDigit with
  | '.' :: rest =>
    let fraction := rest.takeWhile Decimal.isDigit
    if fraction = [] then whole.length else whole.length + 1 + fraction.length
  | _ => whole.length

theorem numberExtent_le (cs : List Char) : numberExtent cs ≤ cs.length := by
  have h := congrArg List.length (List.takeWhile_append_dropWhile (p := Decimal.isDigit) (l := cs))
  rw [List.length_append] at h
  unfold numberExtent
  dsimp only
  split
  · next rest hr =>
    rw [hr] at h
    have := (List.takeWhile_prefix Decimal.isDigit (l := rest)).length_le
    simp only [List.length_cons] at h
    split <;> omega
  · omega

def numberValue (cs : List Char) : Binary64 :=
  Binary64.ofDigits false (cs.takeWhile Decimal.isDigit) ((cs.dropWhile Decimal.isDigit).drop 1) 0

def symbol? (cs : List Char) : Option Symbol :=
  Symbol.all.find? fun s => s.spelling.toList.isPrefixOf cs

/-- The token that begins with `c`, and how many of the characters behind `c` belong to it. -/
def munch (c : Char) (cs : List Char) : Token × Nat :=
  if isNameStart c then
    let word := c :: cs.takeWhile isNamePart
    match keyword? word with
    | some k => (.keyword k, word.length - 1)
    | none => (.ident (String.ofList word), word.length - 1)
  else if Decimal.isDigit c then
    let n := numberExtent cs
    (.number (numberValue (c :: cs.take n)), n)
  else if c = '"' || c = '\'' then
    match stringExtent c cs with
    | (n, true) => (.string (String.ofList (unescape (cs.take (n - 1)))), n)
    | (n, false) => (.error (String.ofList (c :: cs.take n)), n)
  else
    match symbol? (c :: cs) with
    | some s => (.symbol s, s.spelling.length - 1)
    | none => (.error (String.ofList [c]), 0)

theorem symbol?_length_le {cs : List Char} {s : Symbol} (h : symbol? cs = some s) :
    s.spelling.length ≤ cs.length := by
  have hp := List.find?_some h
  have := (List.isPrefixOf_iff_prefix.1 hp).length_le
  rwa [String.length_toList] at this

theorem munch_le (c : Char) (cs : List Char) : (munch c cs).2 ≤ cs.length := by
  have hw := (List.takeWhile_prefix isNamePart (l := cs)).length_le
  have hn := numberExtent_le cs
  have hq := stringExtent_le c cs
  unfold munch
  dsimp only
  split
  · split <;> simpa using hw
  · split
    · exact hn
    · split
      · split <;> simp_all
      · split
        · next s hs =>
          have := symbol?_length_le hs
          simp only [List.length_cons] at this
          dsimp only
          omega
        · exact Nat.zero_le _

def lexFrom (start : Nat) : List Char → List Lexeme
  | [] => []
  | c :: cs =>
    if isLexBlank c then lexFrom (start + c.utf8Size) cs
    else
      let (token, n) := munch c cs
      let stop := start + byteLength (c :: cs.take n)
      ⟨token, start, stop⟩ :: lexFrom stop (cs.drop n)
termination_by cs => cs.length
decreasing_by all_goals simp; try omega

def lex (text : String) : List Lexeme := lexFrom 0 text.toList

end Stencil.Expr
