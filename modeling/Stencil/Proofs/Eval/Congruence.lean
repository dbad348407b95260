import Stencil.Engine.Render
set_option autoImplicit false

namespace Stencil

structure Setting.Same (st st' : Setting) : Prop where
  undefined : st.undefined = st'.undefined
  functions : ∀ name, Entries.get? name st.functions = Entries.get? name st'.functions

namespace Setting.Same

variable {st st' : Setting}

theorem lookup (h : st.Same st') (scope : Scope) (name : String) :
    st.lookup scope name = st'.lookup scope name := by
  simp [Setting.lookup, h.undefined]

theorem call (h : st.Same st') (name : String) (args : List Value) :
    st.call name args = st'.call name args := by
  simp [Setting.call, h.functions]

mutual

theorem eval (h : st.Same st') (scope : Scope) (e : Expr) : e.eval st scope = e.eval st' scope := by
  cases e with
  | literal l => rfl
  | ident n => exact h.lookup scope n
  | array items => simp only [Expr.eval, h.evalItems scope items]
  | object entries => simp only [Expr.eval, h.evalEntries scope entries]
  | member e p => simp only [Expr.eval, h.eval scope e]
  | index e i => simp only [Expr.eval, h.eval scope e, h.eval scope i]
  | call f args => simp only [Expr.eval, h.evalItems scope args, h.call]
  | method e m args => simp only [Expr.eval, h.eval scope e, h.evalItems scope args, h.call]
  | unary op e => simp only [Expr.eval, h.eval scope e]
  | binary op a b => cases op <;> simp only [Expr.eval, h.eval scope a, h.eval scope b]
  | cond test yes no => simp only [Expr.eval, h.eval scope test, h.eval scope yes, h.eval scope no]

theorem evalItems (h : st.Same st') (scope : Scope) (es : List Expr) :
    Expr.evalItems st scope es = Expr.evalItems st' scope es := by
  cases es with
  | nil => rfl
  | cons e es => simp only [Expr.evalItems, h.eval scope e, h.evalItems scope es]

theorem evalEntries (h : st.Same st') (scope : Scope) (xs : List (String × Expr)) :
    Expr.evalEntries st scope xs = Expr.evalEntries st' scope xs := by
  cases xs with
  | nil => rfl
  | cons x xs => simp only [Expr.evalEntries, h.eval scope x.2, h.evalEntries scope xs]

end

end Setting.Same

end Stencil
