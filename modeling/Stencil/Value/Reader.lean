import Stencil.Value.Basic
import Stencil.Text.Span
set_option autoImplicit false

/-!
# Reading JSON text

A value is read from the front of a text, and each fault is placed at a line and a column, which
counts bytes. A number without fraction and exponent that fits 64 bits is an integer. Any other
keeps as many leading digits as fit an unsigned integer of 64 bits, and these are scaled by a power
of ten in binary64. A name that an object repeats keeps its first place and its last value.
-/

namespace Stencil

-- Powers are core's, whatever else is imported. A numeral as exponent needs its type for that.
attribute [local instance (high)] instPowNat

namespace Json

inductive Cause where
  | eofInList
  | eofInObject
  | eofInString
  | eofInValue
  | expectedColon
  | expectedListComma
  | expectedObjectComma
  | expectedIdent
  | expectedValue
  | invalidEscape
  | invalidNumber
  | numberOutOfRange
  | controlCharacter
  | keyNotString
  | loneSurrogate
  | cutEscape
  | trailingComma
  | trailingCharacters
  | tooDeep
  deriving DecidableEq, Repr

def Cause.message : Cause → String
  | .eofInList => "EOF while parsing a list"
  | .eofInObject => "EOF while parsing an object"
  | .eofInString => "EOF while parsing a string"
  | .eofInValue => "EOF while parsing a value"
  | .expectedColon => "expected \x60:\x60"
  | .expectedListComma => "expected \x60,\x60 or \x60]\x60"
  | .expectedObjectComma => "expected \x60,\x60 or \x60\x7d\x60"
  | .expectedIdent => "expected ident"
  | .expectedValue => "expected value"
  | .invalidEscape => "invalid escape"
  | .invalidNumber => "invalid number"
  | .numberOutOfRange => "number out of range"
  | .controlCharacter => "control character (\\u0000-\\u001F) found while parsing a string"
  | .keyNotString => "key must be a string"
  | .loneSurrogate => "lone leading surrogate in hex escape"
  | .cutEscape => "unexpected end of hex escape"
  | .trailingComma => "trailing comma"
  | .trailingCharacters => "trailing characters"
  | .tooDeep => "recursion limit exceeded"

structure Fault where
  cause : Cause
  position : Nat
  deriving DecidableEq, Repr

structure Cursor where
  position : Nat
  rest : List Char

namespace Cursor

def advance (p : Cursor) (c : Char) (cs : List Char) : Cursor := ⟨p.position + c.utf8Size, cs⟩

def isSpace (c : Char) : Bool := c = ' ' || c = '\n' || c = '\t' || c = '\r'

def skipSpace (p : Cursor) : Cursor :=
  ⟨p.position + Text.byteLength (p.rest.takeWhile isSpace), p.rest.dropWhile isSpace⟩

def skipDigits (p : Cursor) : Cursor :=
  ⟨p.position + (p.rest.takeWhile Decimal.isDigit).length, p.rest.dropWhile Decimal.isDigit⟩

def fail {α : Type} (p : Cursor) (cause : Cause) : Except Fault α := .error ⟨cause, p.position⟩

def failAhead {α : Type} (p : Cursor) (cause : Cause) : Except Fault α :=
  .error ⟨cause, if p.rest = [] then p.position else p.position + 1⟩

def failPast {α : Type} (p : Cursor) (cause : Cause) : Except Fault α :=
  .error ⟨cause, p.position + 1⟩

end Cursor

def significandLimit : Nat := 2 ^ (64 : Nat) - 1

/-- `significand * 10 ^ exponent`, scaled in binary64 by powers of ten up to `10 ^ 308`, each step
rounded; `none` if that overflows. -/
def scaled (steps : Nat) (x : Binary64) (exponent : Int) : Option Binary64 :=
  match steps with
  | 0 => some x
  | steps + 1 =>
    if exponent.natAbs ≤ 308 then
      let power := Binary64.ofDecimal false ⟨1, exponent.natAbs⟩
      if 0 ≤ exponent then
        let y := x.mul power
        if y.isFinite then some y else none
      else some (x.div power)
    else if x.same .zero then some x
    else if 0 ≤ exponent then none
    else scaled steps (x.div (Binary64.ofDecimal false ⟨1, 308⟩)) (exponent + 308)

/-- The float made of these parts. Four divisions bring any number down to zero. -/
def float (p : Cursor) (negative : Bool) (significand : Nat) (exponent : Int) : Except Fault (Number × Cursor) :=
  match scaled 5 (.ofInt significand) exponent with
  | some x =>
    match if negative then x.neg else x with
    | .finite y => .ok (.float y, p)
    | _ => p.fail .numberOutOfRange
  | none => p.fail .numberOutOfRange

/-- Gathers digits while the significand stays within its limit; the count tells how many. -/
def gather (significand : Nat) (count : Nat) : List Char → Nat × Nat × List Char
  | [] => (significand, count, [])
  | c :: cs =>
    if Decimal.isDigit c && significand * 10 + Decimal.digitValue c ≤ significandLimit then
      gather (significand * 10 + Decimal.digitValue c) (count + 1) cs
    else (significand, count, c :: cs)

def wordLength (ds : List Char) : Nat :=
  ((List.range ds.length).find? fun k => 2 ^ (31 : Nat) ≤ Decimal.ofDigits (ds.take k)).getD ds.length

def exponentPart (p : Cursor) (negative : Bool) (significand : Nat) (exponent : Int) :
    Except Fault (Number × Cursor) :=
  let (below, p) := match p.rest with
    | '+' :: cs => (false, p.advance '+' cs)
    | '-' :: cs => (true, p.advance '-' cs)
    | _ => (false, p)
  match p.rest with
  | [] => p.fail .eofInValue
  | c :: _ =>
    if Decimal.isDigit c then
      let ds := p.rest.takeWhile Decimal.isDigit
      let e := Decimal.ofDigits ds
      if 2 ^ (31 : Nat) ≤ e then
        if significand ≠ 0 && !below then .error ⟨.numberOutOfRange, p.position + wordLength ds⟩
        else .ok (.float (.zero negative), p.skipDigits)
      else float p.skipDigits negative significand (if below then exponent - e else exponent + e)
    else p.failPast .invalidNumber

def floatEnd (p : Cursor) (negative : Bool) (significand : Nat) (exponent : Int) : Except Fault (Number × Cursor) :=
  match p.rest with
  | 'e' :: cs => exponentPart (p.advance 'e' cs) negative significand exponent
  | 'E' :: cs => exponentPart (p.advance 'E' cs) negative significand exponent
  | _ => float p negative significand exponent

def fractionPart (p : Cursor) (negative : Bool) (significand : Nat) (exponent : Int) :
    Except Fault (Number × Cursor) :=
  match gather significand 0 p.rest with
  | (significand', count, rest) =>
    if p.skipDigits.position = p.position then
      if p.rest = [] then p.fail .eofInValue else p.failAhead .invalidNumber
    else
      let behind : Cursor := ⟨p.position + count, rest⟩
      floatEnd behind.skipDigits negative significand' (exponent - count)

def number (p : Cursor) (negative : Bool) : Except Fault (Number × Cursor) :=
  match p.rest with
  | [] => p.fail .eofInValue
  | c :: cs =>
    if !Decimal.isDigit c then p.failPast .invalidNumber
    else if c = '0' && (cs.head?.map Decimal.isDigit).getD false then
      (p.advance c cs).failAhead .invalidNumber
    else
      let (significand, count, rest) :=
        if c = '0' then (0, 1, cs) else gather 0 0 p.rest
      let behind : Cursor := ⟨p.position + count, rest⟩
      let whole := behind.skipDigits
      let dropped := whole.position - behind.position
      match whole.rest with
      | '.' :: more => fractionPart (whole.advance '.' more) negative significand dropped
      | _ =>
        if dropped ≠ 0 || whole.rest.head? = some 'e' || whole.rest.head? = some 'E' then
          floatEnd whole negative significand dropped
        else if negative then
          if significand = 0 || 2 ^ (63 : Nat) < significand then float whole true significand 0
          else .ok (.int (-significand), whole)
        else .ok (.int significand, whole)

def hexValue? (c : Char) : Option Nat :=
  if Decimal.isDigit c then some (Decimal.digitValue c)
  else if 'a' ≤ c && c ≤ 'f' then some (c.toNat - 87)
  else if 'A' ≤ c && c ≤ 'F' then some (c.toNat - 55)
  else none

def hexEscape (p : Cursor) : Except Fault (Nat × Cursor) :=
  if Text.byteLength p.rest < 4 then
    .error ⟨.eofInString, p.position + Text.byteLength p.rest⟩
  else
    match p.rest with
    | a :: b :: c :: d :: cs =>
      match hexValue? a, hexValue? b, hexValue? c, hexValue? d with
      | some a, some b, some c, some d =>
        .ok (((a * 16 + b) * 16 + c) * 16 + d, ⟨p.position + 4, cs⟩)
      | _, _, _, _ => .error ⟨.invalidEscape, p.position + 4⟩
    | _ => .error ⟨.invalidEscape, p.position + 4⟩

/-- The character of a `u` escape, which may take a second one. -/
def unicodeEscape (p : Cursor) : Except Fault (Char × Cursor) := do
  let (n, p) ← hexEscape p
  if 0xDC00 ≤ n && n ≤ 0xDFFF then p.fail .loneSurrogate
  else if n < 0xD800 || 0xDBFF < n then .ok (Char.ofNat n, p)
  else
    match p.rest with
    | [] => p.fail .eofInString
    | '\\' :: cs =>
      let p := p.advance '\\' cs
      match p.rest with
      | [] => p.fail .eofInString
      | 'u' :: cs =>
        let (m, p) ← hexEscape (p.advance 'u' cs)
        if m < 0xDC00 || 0xDFFF < m then p.fail .loneSurrogate
        else .ok (Char.ofNat ((n - 0xD800) * 0x400 + (m - 0xDC00) + 0x10000), p)
      | _ => p.failPast .cutEscape
    | _ => p.failPast .cutEscape

/-- A string behind its opening quote; each step reads at least one character. -/
def stringBody (steps : Nat) (p : Cursor) (acc : List Char) : Except Fault (String × Cursor) :=
  match steps, p.rest with
  | 0, _ | _, [] => p.fail .eofInString
  | steps + 1, c :: cs =>
    let next := p.advance c cs
    if c = '"' then .ok (String.ofList acc.reverse, next)
    else if c = '\\' then
      match next.rest with
      | [] => next.fail .eofInString
      | d :: ds =>
        let past := next.advance d ds
        match d with
        | '"' | '\\' | '/' => stringBody steps past (d :: acc)
        | 'b' => stringBody steps past ('\x08' :: acc)
        | 'f' => stringBody steps past ('\x0c' :: acc)
        | 'n' => stringBody steps past ('\n' :: acc)
        | 'r' => stringBody steps past ('\r' :: acc)
        | 't' => stringBody steps past ('\t' :: acc)
        | 'u' => do
          let (x, past) ← unicodeEscape past
          stringBody steps past (x :: acc)
        | _ => next.failPast .invalidEscape
    else if c.toNat < 32 then next.fail .controlCharacter
    else stringBody steps next (c :: acc)

def string (p : Cursor) : Except Fault (String × Cursor) := stringBody (p.rest.length + 1) p []

def word (p : Cursor) : List Char → Except Fault Cursor
  | [] => .ok p
  | c :: cs =>
    match p.rest with
    | [] => p.fail .eofInValue
    | d :: ds => if c = d then word (p.advance d ds) cs else p.failPast .expectedIdent

def separator (p : Cursor) (first : Bool) (close : Char) (missing : Cause) :
    Except Fault Cursor :=
  match first, p.rest with
  | true, _ => .ok p
  | false, ',' :: cs =>
    let p := (p.advance ',' cs).skipSpace
    match p.rest with
    | [] => p.fail .eofInValue
    | c :: _ => if c = close then p.failAhead .trailingComma else .ok p
  | false, _ => p.failAhead missing

mutual

/-- A value. The fuel bounds the steps, `depth` the brackets that may still be opened. -/
def value (fuel depth : Nat) (p : Cursor) : Except Fault (Value × Cursor) :=
  match fuel with
  | 0 => p.fail .eofInValue
  | fuel + 1 =>
    let p := p.skipSpace
    match p.rest with
    | [] => p.fail .eofInValue
    | c :: cs => do
      let next := p.advance c cs
      match c with
      | 'n' => return (.null, ← word next ['u', 'l', 'l'])
      | 't' => return (.bool true, ← word next ['r', 'u', 'e'])
      | 'f' => return (.bool false, ← word next ['a', 'l', 's', 'e'])
      | '-' =>
        let (n, p) ← number next true
        return (.number n, p)
      | '"' =>
        let (s, p) ← string next
        return (.string s, p)
      | '[' => if depth ≤ 1 then p.failAhead .tooDeep else items fuel (depth - 1) next true []
      | '\x7b' => if depth ≤ 1 then p.failAhead .tooDeep else fields fuel (depth - 1) next true []
      | c =>
        if Decimal.isDigit c then
          let (n, p) ← number p false
          return (.number n, p)
        else p.failAhead .expectedValue

def items (fuel depth : Nat) (p : Cursor) (first : Bool) (acc : List Value) : Except Fault (Value × Cursor) :=
  match fuel with
  | 0 => p.fail .eofInList
  | fuel + 1 =>
    let p := p.skipSpace
    match p.rest with
    | [] => p.fail .eofInList
    | ']' :: cs => .ok (.array acc.reverse, p.advance ']' cs)
    | _ => do
      let p ← separator p first ']' .expectedListComma
      let (v, p) ← value fuel depth p
      items fuel depth p false (v :: acc)

def fields (fuel depth : Nat) (p : Cursor) (first : Bool) (acc : List (String × Value)) :
    Except Fault (Value × Cursor) :=
  match fuel with
  | 0 => p.fail .eofInObject
  | fuel + 1 =>
    let p := p.skipSpace
    match p.rest with
    | [] => p.fail .eofInObject
    | '\x7d' :: cs => .ok (.object acc, p.advance '\x7d' cs)
    | _ => do
      let p ← separator p first '\x7d' .expectedObjectComma
      match p.rest with
      | '"' :: cs =>
        let (k, p) ← string (p.advance '"' cs)
        let p := p.skipSpace
        match p.rest with
        | [] => p.fail .eofInObject
        | ':' :: cs =>
          let (v, p) ← value fuel depth (p.advance ':' cs)
          fields fuel depth p false (Entries.insert k v acc)
        | _ => p.failAhead .expectedColon
      | _ => p.failAhead .keyNotString

end

/-- One value and nothing behind it but blanks. At most 127 brackets may be open at a time. -/
def document (text : String) : Except Fault Value := do
  let cs := text.toList
  let (v, p) ← value (2 * cs.length + 2) 128 ⟨0, cs⟩
  let p := p.skipSpace
  if p.rest = [] then .ok v else p.failAhead .trailingCharacters

/-- Line and column, counted from one and from zero, of a byte position. -/
def place (cs : List Char) (position : Nat) : Nat × Nat :=
  go cs position 1 0
where
  go : List Char → Nat → Nat → Nat → Nat × Nat
    | [], _, line, column => (line, column)
    | c :: cs, position, line, column =>
      if position = 0 then (line, column)
      else if c = '\n' then go cs (position - 1) (line + 1) 0
      else if position < c.utf8Size then (line, column + position)
      else go cs (position - c.utf8Size) line (column + c.utf8Size)

def Fault.message (f : Fault) (text : String) : String :=
  let (line, column) := place text.toList f.position
  f.cause.message ++ s!" at line {line} column {column}"

end Json

end Stencil
