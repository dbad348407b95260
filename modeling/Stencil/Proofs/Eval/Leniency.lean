import Stencil.Engine.Render
set_option autoImplicit false

namespace Stencil

/-- The second result is the first, unless that is the error of a name that is not bound. -/
def Repaired {α : Type} (x y : Except RenderError α) : Prop :=
  (∃ n, x = .error (.undefinedVariable n)) ∨ y = x

namespace Repaired

variable {α β : Type}

theorem refl (x : Except RenderError α) : Repaired x x := .inr rfl

theorem bind {x y : Except RenderError α} {f g : α → Except RenderError β} (h : Repaired x y)
    (hf : ∀ a, Repaired (f a) (g a)) : Repaired (x >>= f) (y >>= g) := by
  obtain ⟨n, rfl⟩ | rfl := h
  · exact .inl ⟨n, rfl⟩
  · cases y with
    | error e => exact refl _
    | ok a => exact hf a

end Repaired

namespace Expr

variable (fs : Functions) (scope : Scope)

theorem lookup_lenient (name : String) :
    Repaired (Setting.lookup ⟨fs, .strict⟩ scope name)
      (Setting.lookup ⟨fs, .lenient⟩ scope name) := by
  unfold Setting.lookup
  cases scope.lookup name with
  | some v => exact .refl _
  | none => exact .inl ⟨name, rfl⟩

mutual

theorem eval_lenient (e : Expr) :
    Repaired (e.eval ⟨fs, .strict⟩ scope) (e.eval ⟨fs, .lenient⟩ scope) := by
  cases e with
  | literal l => exact .refl _
  | ident n => exact lookup_lenient fs scope n
  | array items => exact (evalItems_lenient items).bind fun vs => .refl _
  | object entries => exact (evalEntries_lenient entries).bind fun vs => .refl _
  | member e p => exact (eval_lenient e).bind fun v => .refl _
  | index e i => exact (eval_lenient e).bind fun v => (eval_lenient i).bind fun w => .refl _
  | call f args => exact (evalItems_lenient args).bind fun vs => .refl _
  | method e m args =>
    exact (eval_lenient e).bind fun v => (evalItems_lenient args).bind fun vs => .refl _
  | unary op e => exact (eval_lenient e).bind fun v => .refl _
  | binary op a b =>
    have hboth {β : Type} (f : Value → Value → Except RenderError β) :
        Repaired
          (do let v ← a.eval ⟨fs, .strict⟩ scope; let w ← b.eval ⟨fs, .strict⟩ scope; f v w)
          (do let v ← a.eval ⟨fs, .lenient⟩ scope; let w ← b.eval ⟨fs, .lenient⟩ scope; f v w) :=
      (eval_lenient a).bind fun v => (eval_lenient b).bind fun w => .refl _
    cases op with
    | and =>
      refine (eval_lenient a).bind fun v => ?_
      cases v.isTruthy with
      | true => exact eval_lenient b
      | false => exact .refl _
    | or =>
      refine (eval_lenient a).bind fun v => ?_
      cases v.isTruthy with
      | true => exact .refl _
      | false => exact eval_lenient b
    | _ => exact hboth _
  | cond test yes no =>
    refine (eval_lenient test).bind fun v => ?_
    cases v.isTruthy with
    | true => exact eval_lenient yes
    | false => exact eval_lenient no

theorem evalItems_lenient (es : List Expr) :
    Repaired (evalItems ⟨fs, .strict⟩ scope es) (evalItems ⟨fs, .lenient⟩ scope es) := by
  cases es with
  | nil => exact .refl _
  | cons e es => exact (eval_lenient e).bind fun v => (evalItems_lenient es).bind fun vs => .refl _

theorem evalEntries_lenient (es : List (String × Expr)) :
    Repaired (evalEntries ⟨fs, .strict⟩ scope es) (evalEntries ⟨fs, .lenient⟩ scope es) := by
  cases es with
  | nil => exact .refl _
  | cons x es =>
    exact (eval_lenient x.2).bind fun v => (evalEntries_lenient es).bind fun vs => .refl _

end

end Expr

theorem Expression.eval_lenient (fs : Functions) (scope : Scope) (e : Expression)
    (template : Option String) :
    Repaired (e.eval template ⟨fs, .strict⟩ scope) (e.eval template ⟨fs, .lenient⟩ scope) :=
  (Repaired.refl (e.tree template)).bind fun tree => tree.eval_lenient fs scope

end Stencil
