import Stencil.Eval.Error
import Stencil.Text.Blank
import Stencil.Text.LetterCase
import Stencil.Value.Json
set_option autoImplicit false

namespace Stencil

/-- A function of its arguments, or the message with which it fails. -/
abbrev Function := List Value → Except String Value

abbrev Functions := List (String × Function)

inductive ArgumentError where
  | missing (index : Nat)
  | notString (index : Nat) (found : Kind)
  | noLength (found : Kind)
  | notJoinable (found : Kind)
  | unprintable (found : Kind)
  | noKeys (found : Kind)
  | notSearchable (haystack needle : Kind)
  deriving DecidableEq, Repr

/-- Arguments are counted from zero here and from one in the text. -/
def ArgumentError.message : ArgumentError → String
  | .missing i => "missing argument " ++ Decimal.natText (i + 1)
  | .notString i k => "argument " ++ Decimal.natText (i + 1) ++ " must be a string, found " ++ k.name
  | .noLength k => k.name ++ " has no length"
  | .notJoinable k => "cannot join " ++ k.name
  | .unprintable k => unprintableMessage k
  | .noKeys k => k.name ++ " has no keys"
  | .notSearchable k l => "cannot search " ++ k.name ++ " for " ++ l.name

namespace Functions

def arg (args : List Value) (i : Nat) : Except ArgumentError Value :=
  match args[i]? with
  | some v => .ok v
  | none => .error (.missing i)

def stringArg (args : List Value) (i : Nat) : Except ArgumentError String := do
  match ← arg args i with
  | .string s => return s
  | v => throw (.notString i v.kind)

def len (args : List Value) : Except ArgumentError Value := do
  let v ← arg args 0
  match v.length? with
  | some n => return .number (.ofCount n)
  | none => throw (.noLength v.kind)

def onText (f : List Char → List Char) (args : List Value) : Except ArgumentError Value := do
  return .string (String.ofList (f (← stringArg args 0).toList))

def itemTexts : List Value → Except ArgumentError (List String)
  | [] => .ok []
  | v :: vs =>
    match v.text? with
    | some s => (itemTexts vs).map (s :: ·)
    | none => .error (.unprintable v.kind)

def join (args : List Value) : Except ArgumentError Value := do
  match ← arg args 0 with
  | .array items =>
    let separator ← if args.length ≤ 1 then pure "" else stringArg args 1
    return .string (separator.intercalate (← itemTexts items))
  | v => throw (.notJoinable v.kind)

def keys (args : List Value) : Except ArgumentError Value := do
  match ← arg args 0 with
  | .object fields => return .array ((Entries.keys fields).map .string)
  | v => throw (.noKeys v.kind)

def contains (args : List Value) : Except ArgumentError Value := do
  let needle ← arg args 1
  match ← arg args 0, needle with
  | .string s, .string part => return .bool (Text.occursIn part.toList s.toList)
  | .array items, v => return .bool (items.any fun item => item.equal v)
  | .object fields, .string k => return .bool (Entries.contains k fields)
  | v, w => throw (.notSearchable v.kind w.kind)

def str (args : List Value) : Except ArgumentError Value := do
  let v ← arg args 0
  match v.text? with
  | some s => return .string s
  | none => throw (.unprintable v.kind)

def fallback (args : List Value) : Except ArgumentError Value := do
  match ← arg args 0 with
  | .null => arg args 1
  | v => return v

def json (args : List Value) : Except ArgumentError Value := do
  return .string (← arg args 0).json

def builtins : List (String × (List Value → Except ArgumentError Value)) :=
  [("len", len), ("upper", onText Text.upper), ("lower", onText Text.lower),
    ("trim", onText Text.trim), ("join", join), ("keys", keys), ("contains", contains),
    ("str", str), ("default", fallback), ("json", json)]

/-- The built-in functions as a table to which others can be added. -/
def standard : Functions :=
  builtins.map fun f => (f.1, fun args => (f.2 args).mapError ArgumentError.message)

end Functions

end Stencil
