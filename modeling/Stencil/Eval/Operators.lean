import Stencil.Eval.Error
set_option autoImplicit false

namespace Stencil.Value

/-- The number with this value; an infinity or `nan` is an error of its origin. -/
def ofBinary64 (origin : Origin) (x : Binary64) : Except RenderError Value :=
  match Number.ofBinary64? x with
  | some n => .ok (.number n)
  | none => .error (.nonFinite origin)

theorem ofBinary64_ok {origin : Origin} {x : Binary64} {v : Value}
    (h : ofBinary64 origin x = .ok v) : ∃ n, Number.ofBinary64? x = some n ∧ v = .number n := by
  unfold ofBinary64 at h
  split at h
  · next n hn => exact ⟨n, hn, by injection h with h; exact h.symm⟩
  · cases h

def print (v : Value) : Except RenderError String :=
  match v.text? with
  | some s => .ok s
  | none => .error (.unprintable v.kind)

def unary (op : UnaryOp) (v : Value) : Except RenderError Value :=
  match op, v.asNumber? with
  | .not, _ => .ok (.bool !v.isTruthy)
  | .neg, some x => ofBinary64 (.unary .neg) x.neg
  | .pos, some x => ofBinary64 (.unary .pos) x
  | _, none => .error (.type (.sign v.kind))

/-- Numbers are added; if one side is a string, both texts are joined. -/
def add (v w : Value) : Except RenderError Value :=
  match v.asNumber?, w.asNumber? with
  | some x, some y => ofBinary64 (.binary .add) (x.add y)
  | _, _ =>
    if v.kind = .string || w.kind = .string then do
      let s ← v.print
      let t ← w.print
      return .string (s ++ t)
    else .error (.type (.add v.kind w.kind))

def arithmetic (op : BinaryOp) (apply : Binary64 → Binary64 → Binary64) (v w : Value) :
    Except RenderError Value :=
  match v.asNumber?, w.asNumber? with
  | some x, some y => ofBinary64 (.binary op) (apply x y)
  | _, _ => .error (.type (.arithmetic op v.kind w.kind))

def ordered (op : BinaryOp) (test : Ordering → Bool) (v w : Value) : Except RenderError Value :=
  match v.compare? w with
  | some o => .ok (.bool (test o))
  | none => .error (.type (.compare op v.kind w.kind))

/-- A binary operator on two values. The connectives choose an operand by the first one. -/
def binary (op : BinaryOp) (v w : Value) : Except RenderError Value :=
  match op with
  | .add => add v w
  | .sub => arithmetic op Binary64.sub v w
  | .mul => arithmetic op Binary64.mul v w
  | .div => arithmetic op Binary64.div v w
  | .rem => arithmetic op Binary64.rem v w
  | .eq | .strictEq => .ok (.bool (v.equal w))
  | .notEq | .strictNotEq => .ok (.bool !v.equal w)
  | .less => ordered op Ordering.isLT v w
  | .lessOrEqual => ordered op Ordering.isLE v w
  | .greater => ordered op Ordering.isGT v w
  | .greaterOrEqual => ordered op Ordering.isGE v w
  | .and => .ok (if v.isTruthy then w else v)
  | .or => .ok (if v.isTruthy then v else w)

def member (v : Value) (property : String) : Except RenderError Value :=
  match v with
  | .object fields => .ok ((Entries.get? property fields).getD .null)
  | .string s =>
    if property = "length" then .ok (.number (.ofCount s.length))
    else .error (.type (.member property .string))
  | .array items =>
    if property = "length" then .ok (.number (.ofCount items.length))
    else .error (.type (.member property .array))
  | v => .error (.type (.member property v.kind))

/-- The position that a number names: whole and not negative. -/
def position? (n : Number) : Option Nat :=
  match n.toBinary64 with
  | .finite x => if x.isIntegral && 0 ≤ x.units then some x.truncate.toNat else none
  | _ => none

/-- An item of an array by its position or a field of an object by its name, null if there is
none. -/
def index (v w : Value) : Except RenderError Value :=
  match v, w with
  | .array items, .number n => .ok (((position? n).bind fun i => items[i]?).getD .null)
  | .object fields, .string k => .ok ((Entries.get? k fields).getD .null)
  | v, w => .error (.type (.index v.kind w.kind))

end Stencil.Value
