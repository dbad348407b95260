import Mathlib.Data.List.Forall2
import Stencil.Eval.Basic
set_option autoImplicit false

namespace Stencil

namespace Functions

theorem get?_standard (name : String) :
    Entries.get? name standard = (Entries.get? name builtins).map fun f args =>
      (f args).mapError ArgumentError.message :=
  Entries.get?_map (fun (f : List Value → Except ArgumentError Value) args =>
    (f args).mapError ArgumentError.message) name builtins

/-- All built-in functions are in the table, each under its name. -/
def HasBuiltins (fs : Functions) : Prop :=
  ∀ name f, Entries.get? name standard = some f → Entries.get? name fs = some f

theorem HasBuiltins.call {st : Setting} (h : st.functions.HasBuiltins) {name : String}
    {f : List Value → Except ArgumentError Value} (hf : Entries.get? name builtins = some f)
    (args : List Value) :
    st.call name args = (f args).mapError fun err => .function name err.message := by
  have hstandard : Entries.get? name standard =
      some fun args => (f args).mapError ArgumentError.message := by
    rw [get?_standard, hf]
    rfl
  simp only [Setting.call, h name _ hstandard]
  cases f args <;> rfl

end Functions

namespace Expr

variable {st : Setting} {scope : Scope}

section

variable {x y : Expr} {v w : Value} (hx : x.eval st scope = .ok v)

include hx

theorem eval_member (name : String) : (member x name).eval st scope = v.member name := by
  rw [eval, hx]
  rfl

variable (hy : y.eval st scope = .ok w)

include hy

theorem eval_index : (index x y).eval st scope = v.index w := by
  rw [eval, hx, hy]
  rfl

/-- A connective may leave its second operand alone, which makes no difference if that one has a value. -/
theorem eval_binary (op : BinaryOp) : (binary op x y).eval st scope = v.binary op w := by
  cases op with
  | and | or =>
    simp only [eval, hx, hy, Value.binary, bind, Except.bind]
    cases v.isTruthy <;> rfl
  | _ =>
    simp only [eval, hx, hy]
    rfl

end

section

variable {es : List Expr} {vs : List Value}
  (h : List.Forall₂ (fun e v => e.eval st scope = .ok v) es vs)

include h

theorem evalItems_of_forall₂ : evalItems st scope es = .ok vs := by
  induction h with
  | nil => rfl
  | cons he _ ih =>
    rw [evalItems, he, ih]
    rfl

theorem eval_call (f : String) : (call f es).eval st scope = st.call f vs := by
  rw [eval, evalItems_of_forall₂ h]
  rfl

variable (hst : st.functions.HasBuiltins) {name : String} {f : List Value → Except ArgumentError Value}
  (hf : Entries.get? name Functions.builtins = some f)

include hst hf

theorem eval_builtin : (call name es).eval st scope =
    (f vs).mapError fun err => .function name err.message := by
  rw [eval_call h, hst.call hf]

theorem eval_builtin_of_ok {v : Value} (hv : f vs = .ok v) : (call name es).eval st scope = .ok v := by
  rw [eval_builtin h hst hf, hv]
  rfl

end

end Expr

end Stencil
