import Stencil.Eval.Functions
import Stencil.Eval.Operators
import Stencil.Eval.Scope
set_option autoImplicit false

/-!
# Evaluation

The value of an expression in a scope. Operands are evaluated from left to right and the first error
ends the evaluation; a connective or a conditional evaluates only the operands that it needs.
-/

namespace Stencil

inductive Undefined where
  | strict
  | lenient
  deriving DecidableEq, Repr

structure Setting where
  functions : Functions
  undefined : Undefined

namespace Setting

def lookup (st : Setting) (scope : Scope) (name : String) : Except RenderError Value :=
  match scope.lookup name, st.undefined with
  | some v, _ => .ok v
  | none, .strict => .error (.undefinedVariable name)
  | none, .lenient => .ok .null

def call (st : Setting) (name : String) (args : List Value) : Except RenderError Value :=
  match Entries.get? name st.functions with
  | none => .error (.unknownFunction name)
  | some f => (f args).mapError (.function name)

end Setting

/-- A number literal is held as any other number. -/
def Literal.value : Literal → Except RenderError Value
  | .null => .ok .null
  | .bool b => .ok (.bool b)
  | .number x => Value.ofBinary64 .literal x
  | .string s => .ok (.string s)

namespace Expr

mutual

def eval (st : Setting) (scope : Scope) : Expr → Except RenderError Value
  | .literal l => l.value
  | .ident n => st.lookup scope n
  | .array items => do return .array (← evalItems st scope items)
  | .object entries => do return .object (Entries.ofList (← evalEntries st scope entries))
  | .member e p => do (← eval st scope e).member p
  | .index e i => do
    let v ← eval st scope e
    let w ← eval st scope i
    v.index w
  | .call f args => do st.call f (← evalItems st scope args)
  | .method e m args => do
    let v ← eval st scope e
    let vs ← evalItems st scope args
    st.call m (v :: vs)
  | .unary op e => do (← eval st scope e).unary op
  | .binary .and a b => do
    let v ← eval st scope a
    if v.isTruthy then eval st scope b else return v
  | .binary .or a b => do
    let v ← eval st scope a
    if v.isTruthy then return v else eval st scope b
  | .binary op a b => do
    let v ← eval st scope a
    let w ← eval st scope b
    v.binary op w
  | .cond test yes no => do
    let v ← eval st scope test
    if v.isTruthy then eval st scope yes else eval st scope no

def evalItems (st : Setting) (scope : Scope) : List Expr → Except RenderError (List Value)
  | [] => .ok []
  | e :: es => do
    let v ← eval st scope e
    let vs ← evalItems st scope es
    return v :: vs

def evalEntries (st : Setting) (scope : Scope) :
    List (String × Expr) → Except RenderError (List (String × Value))
  | [] => .ok []
  | (k, e) :: es => do
    let v ← eval st scope e
    let vs ← evalEntries st scope es
    return (k, v) :: vs

end

end Expr

end Stencil
