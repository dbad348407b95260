import Stencil.Eval.Basic
set_option autoImplicit false

namespace Stencil

namespace Expr

mutual

def names : Expr → List String
  | .literal _ => []
  | .ident n => [n]
  | .array items => itemNames items
  | .object entries => entryNames entries
  | .member e _ => e.names
  | .index e i => e.names ++ i.names
  | .call _ args => itemNames args
  | .method e _ args => e.names ++ itemNames args
  | .unary _ e => e.names
  | .binary _ a b => a.names ++ b.names
  | .cond test yes no => test.names ++ (yes.names ++ no.names)

def itemNames : List Expr → List String
  | [] => []
  | e :: es => e.names ++ itemNames es

def entryNames : List (String × Expr) → List String
  | [] => []
  | (_, e) :: es => e.names ++ entryNames es

end

end Expr

namespace Setting

/-- Both scopes have the same value for each of the names, or fail on it alike. -/
def Agrees (st : Setting) (s s' : Scope) (names : List String) : Prop :=
  ∀ n ∈ names, st.lookup s n = st.lookup s' n

variable {st : Setting} {s s' : Scope}

theorem Agrees.mono {ns ms : List String} (h : st.Agrees s s' ns) (hm : ms ⊆ ns) :
    st.Agrees s s' ms := fun n hn => h n (hm hn)

@[simp] theorem agrees_append (ns ms : List String) :
    st.Agrees s s' (ns ++ ms) ↔ st.Agrees s s' ns ∧ st.Agrees s s' ms := by
  simp [Agrees, or_imp, forall_and]

theorem agrees_of_lookup {ns : List String} (h : ∀ n ∈ ns, s.lookup n = s'.lookup n) :
    st.Agrees s s' ns := fun n hn => by simp only [Setting.lookup, h n hn]

theorem Agrees.push {ns : List String} {f : LoopFrame}
    (h : st.Agrees s s' (ns.filter fun n => n ≠ f.indexName ∧ n ≠ f.valueName)) :
    st.Agrees (s.push f) (s'.push f) ns := by
  intro n hn
  simp only [Setting.lookup, Scope.lookup_push]
  cases hf : f.get? n with
  | some v => rfl
  | none =>
    have hlookup := h n (by simpa [hn] using (f.get?_eq_none_iff n).1 hf)
    simpa only [Setting.lookup, Option.none_or] using hlookup

end Setting

namespace Expr

variable {st : Setting} {s s' : Scope}

mutual

theorem eval_agrees (e : Expr) (h : st.Agrees s s' e.names) : e.eval st s = e.eval st s' := by
  cases e with
  | literal l => rfl
  | ident n => exact h n (by simp [names])
  | array items =>
    rw [names] at h
    simp only [eval, evalItems_agrees items h]
  | object entries =>
    rw [names] at h
    simp only [eval, evalEntries_agrees entries h]
  | member e p =>
    rw [names] at h
    simp only [eval, eval_agrees e h]
  | index e i =>
    simp only [names, Setting.agrees_append] at h
    simp only [eval, eval_agrees e h.1, eval_agrees i h.2]
  | call f args =>
    rw [names] at h
    simp only [eval, evalItems_agrees args h]
  | method e m args =>
    simp only [names, Setting.agrees_append] at h
    simp only [eval, eval_agrees e h.1, evalItems_agrees args h.2]
  | unary op e =>
    rw [names] at h
    simp only [eval, eval_agrees e h]
  | binary op a b =>
    simp only [names, Setting.agrees_append] at h
    cases op <;> simp only [eval, eval_agrees a h.1, eval_agrees b h.2]
  | cond test yes no =>
    simp only [names, Setting.agrees_append] at h
    simp only [eval, eval_agrees test h.1, eval_agrees yes h.2.1, eval_agrees no h.2.2]

theorem evalItems_agrees (es : List Expr) (h : st.Agrees s s' (itemNames es)) :
    evalItems st s es = evalItems st s' es := by
  cases es with
  | nil => rfl
  | cons e es =>
    simp only [itemNames, Setting.agrees_append] at h
    simp only [evalItems, eval_agrees e h.1, evalItems_agrees es h.2]

theorem evalEntries_agrees (xs : List (String × Expr)) (h : st.Agrees s s' (entryNames xs)) :
    evalEntries st s xs = evalEntries st s' xs := by
  cases xs with
  | nil => rfl
  | cons x xs =>
    simp only [entryNames, Setting.agrees_append] at h
    simp only [evalEntries, eval_agrees x.2 h.1, evalEntries_agrees xs h.2]

end

end Expr

end Stencil
