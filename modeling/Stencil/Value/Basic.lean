import Stencil.Number.Basic
import Stencil.Value.Entries
import Stencil.Text.Order
set_option autoImplicit false

namespace Stencil

inductive Value where
  | null
  | bool (b : Bool)
  | number (n : Number)
  | string (s : String)
  | array (items : List Value)
  | object (fields : List (String × Value))

inductive Kind where
  | null
  | boolean
  | number
  | string
  | array
  | object
  deriving DecidableEq, Repr

def Kind.name : Kind → String
  | .null => "null"
  | .boolean => "boolean"
  | .number => "number"
  | .string => "string"
  | .array => "array"
  | .object => "object"

namespace Value

instance : Inhabited Value := ⟨.null⟩

def kind : Value → Kind
  | .null => .null
  | .bool _ => .boolean
  | .number _ => .number
  | .string _ => .string
  | .array _ => .array
  | .object _ => .object

/-- Null, false, zero and the empty string count as false, all else as true. -/
def isTruthy : Value → Bool
  | .null => false
  | .bool b => b
  | .number n => !n.isZero
  | .string s => s ≠ ""
  | .array _ | .object _ => true

def asNumber? : Value → Option Binary64
  | .number n => some n.toBinary64
  | _ => none

/-- The text of a string, number or boolean; null, arrays and objects have none. -/
def text? : Value → Option String
  | .string s => some s
  | .number n => some n.text
  | .bool b => some (if b then "true" else "false")
  | .null | .array _ | .object _ => none

theorem text?_eq_none_iff (v : Value) :
    v.text? = none ↔ v.kind = .null ∨ v.kind = .array ∨ v.kind = .object := by
  cases v <;> simp [text?, kind]

def length? : Value → Option Nat
  | .string s => some s.length
  | .array items => some items.length
  | .object fields => some fields.length
  | _ => none

mutual

/-- Equality of values: numbers by their values, arrays item by item, objects field by field in
any order. -/
def equal : Value → Value → Bool
  | .null, .null => true
  | .bool a, .bool b => a = b
  | .number m, .number n => m.same n
  | .string s, .string t => s = t
  | .array xs, .array ys => equalItems xs ys
  | .object xs, .object ys => xs.length = ys.length && equalFields xs ys
  | _, _ => false

def equalItems : List Value → List Value → Bool
  | [], [] => true
  | x :: xs, y :: ys => equal x y && equalItems xs ys
  | _, _ => false

def equalFields : List (String × Value) → List (String × Value) → Bool
  | [], _ => true
  | (k, x) :: xs, ys =>
    (match Entries.get? k ys with
    | some y => equal x y
    | none => false) && equalFields xs ys

end

def compare? : Value → Value → Option Ordering
  | .string s, .string t => some (Text.order s.toList t.toList)
  | .number m, .number n => m.compare? n
  | _, _ => none

end Value

end Stencil
