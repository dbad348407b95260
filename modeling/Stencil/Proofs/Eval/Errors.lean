import Stencil.Eval.Basic
set_option autoImplicit false

namespace Stencil

def RenderError.isSyntax : RenderError → Bool
  | .expression .. => true
  | _ => false

/-- If it fails, then not for a text that cannot be read. -/
def Understood {α : Type} (x : Except RenderError α) : Prop :=
  ∀ err, x = .error err → err.isSyntax = false

section

variable {α β : Type}

theorem understood_ok (a : α) : Understood (.ok a) := by
  rintro _ ⟨⟩

theorem understood_error {err : RenderError} (h : err.isSyntax = false) :
    Understood (.error err : Except RenderError α) := by
  rintro _ ⟨⟩
  exact h

theorem Understood.bind {x : Except RenderError α} {f : α → Except RenderError β}
    (h : Understood x) (hf : ∀ a, Understood (f a)) : Understood (x >>= f) := by
  cases x with
  | ok a => exact hf a
  | error err => exact understood_error (h err rfl)

end

namespace Value

theorem understood_ofBinary64 (origin : Origin) (x : Binary64) :
    Understood (ofBinary64 origin x) := by
  unfold ofBinary64
  split
  · exact understood_ok _
  · exact understood_error rfl

theorem understood_print (v : Value) : Understood v.print := by
  unfold print
  split
  · exact understood_ok _
  · exact understood_error rfl

theorem understood_unary (op : UnaryOp) (v : Value) : Understood (v.unary op) := by
  unfold unary
  split
  · exact understood_ok _
  · exact understood_ofBinary64 _ _
  · exact understood_ofBinary64 _ _
  · exact understood_error rfl

theorem understood_add (v w : Value) : Understood (v.add w) := by
  unfold add
  split
  · exact understood_ofBinary64 _ _
  · split
    · exact v.understood_print.bind fun s => w.understood_print.bind fun t => understood_ok _
    · exact understood_error rfl

theorem understood_arithmetic (op : BinaryOp) (apply : Binary64 → Binary64 → Binary64)
    (v w : Value) : Understood (arithmetic op apply v w) := by
  unfold arithmetic
  split
  · exact understood_ofBinary64 _ _
  · exact understood_error rfl

theorem understood_ordered (op : BinaryOp) (test : Ordering → Bool) (v w : Value) :
    Understood (ordered op test v w) := by
  unfold ordered
  split
  · exact understood_ok _
  · exact understood_error rfl

theorem understood_binary (op : BinaryOp) (v w : Value) : Understood (v.binary op w) := by
  cases op with
  | add => exact understood_add v w
  | sub | mul | div | rem => exact understood_arithmetic _ _ v w
  | eq | notEq | strictEq | strictNotEq => exact understood_ok _
  | less | lessOrEqual | greater | greaterOrEqual => exact understood_ordered _ _ v w
  | and | or => exact understood_ok _

theorem understood_member (v : Value) (property : String) : Understood (v.member property) := by
  unfold member
  split
  · exact understood_ok _
  · split
    · exact understood_ok _
    · exact understood_error rfl
  · split
    · exact understood_ok _
    · exact understood_error rfl
  · exact understood_error rfl

theorem understood_index (v w : Value) : Understood (v.index w) := by
  unfold index
  split
  · exact understood_ok _
  · exact understood_ok _
  · exact understood_error rfl

end Value

namespace Setting

theorem understood_lookup (st : Setting) (scope : Scope) (name : String) :
    Understood (st.lookup scope name) := by
  unfold lookup
  split
  · exact understood_ok _
  · exact understood_error rfl
  · exact understood_ok _

theorem understood_call (st : Setting) (name : String) (args : List Value) :
    Understood (st.call name args) := by
  unfold call
  split
  · exact understood_error rfl
  · next f _ =>
    cases f args with
    | ok v => exact understood_ok v
    | error message => exact understood_error rfl

end Setting

theorem Literal.understood_value (l : Literal) : Understood l.value := by
  cases l with
  | number x => exact Value.understood_ofBinary64 _ x
  | _ => exact understood_ok _

namespace Expr

variable (st : Setting) (scope : Scope)

mutual

theorem understood_eval (e : Expr) : Understood (e.eval st scope) := by
  cases e with
  | literal l => exact l.understood_value
  | ident n => exact st.understood_lookup scope n
  | array items => exact (understood_evalItems items).bind fun vs => understood_ok _
  | object entries => exact (understood_evalEntries entries).bind fun vs => understood_ok _
  | member e p => exact (understood_eval e).bind fun v => v.understood_member p
  | index e i =>
    exact (understood_eval e).bind fun v => (understood_eval i).bind fun w => v.understood_index w
  | call f args => exact (understood_evalItems args).bind fun vs => st.understood_call f vs
  | method e m args =>
    exact (understood_eval e).bind fun v =>
      (understood_evalItems args).bind fun vs => st.understood_call m (v :: vs)
  | unary op e => exact (understood_eval e).bind fun v => v.understood_unary op
  | binary op a b =>
    cases op with
    | and =>
      refine (understood_eval a).bind fun v => ?_
      split
      · exact understood_eval b
      · exact understood_ok v
    | or =>
      refine (understood_eval a).bind fun v => ?_
      split
      · exact understood_ok v
      · exact understood_eval b
    | _ =>
      exact (understood_eval a).bind fun v =>
        (understood_eval b).bind fun w => Value.understood_binary _ v w
  | cond test yes no =>
    refine (understood_eval test).bind fun v => ?_
    split
    · exact understood_eval yes
    · exact understood_eval no

theorem understood_evalItems (es : List Expr) : Understood (evalItems st scope es) := by
  cases es with
  | nil => exact understood_ok []
  | cons e es =>
    exact (understood_eval e).bind fun v =>
      (understood_evalItems es).bind fun vs => understood_ok (v :: vs)

theorem understood_evalEntries (xs : List (String × Expr)) :
    Understood (evalEntries st scope xs) := by
  cases xs with
  | nil => exact understood_ok []
  | cons x xs =>
    obtain ⟨k, e⟩ := x
    exact (understood_eval e).bind fun v =>
      (understood_evalEntries xs).bind fun vs => understood_ok ((k, v) :: vs)

end

end Expr

end Stencil
