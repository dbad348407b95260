import Stencil.Proofs.Eval.Comparisons
import Stencil.Proofs.Value.Order
import Stencil.Proofs.Value.WellFormed
set_option autoImplicit false

/-!
# Evaluation of well-formed values

In a scope of well-formed values an expression has a well-formed one, if the functions keep to that. What a
literal, a sign or an arithmetic operator computes is an integer wherever it can be one, an object that is
written with a name more than once has it once, and numbers can always be compared. Main statement:
`Expr.eval_keeps_wellFormed`.
-/

namespace Stencil

/-- Every function makes a well-formed value of well-formed arguments, if it succeeds. -/
def Setting.KeepsWellFormed (st : Setting) : Prop :=
  ∀ f ∈ st.functions, ∀ args : List Value, (∀ v ∈ args, v.WellFormed) →
    Yields Value.WellFormed (f.2 args)

def Scope.WellFormed (s : Scope) : Prop :=
  (∀ f ∈ s.context, f.2.WellFormed) ∧ ∀ f ∈ s.frames, f.index.WellFormed ∧ f.value.WellFormed

theorem Functions.standard_keepsWellFormed (undefined : Undefined) :
    Setting.KeepsWellFormed ⟨standard, undefined⟩ := by
  intro f hf args hargs
  obtain ⟨g, hg, rfl⟩ := List.mem_map.1 hf
  exact (yields_builtin hargs hg).mapError _

theorem Scope.WellFormed.lookup {s : Scope} (h : s.WellFormed) {name : String} {v : Value}
    (hv : s.lookup name = some v) : v.WellFormed := by
  obtain hv | ⟨-, hv⟩ := Option.or_eq_some_iff.1 hv
  · obtain ⟨f, hf, hv⟩ := List.exists_of_findSome?_eq_some hv
    obtain ⟨hindex, hvalue⟩ := h.2 f hf
    unfold LoopFrame.get? at hv
    split at hv
    · cases hv
      exact hvalue
    · split at hv
      · cases hv
        exact hindex
      · cases hv
  · exact h.1 _ (Entries.mem_of_get? hv)

theorem Setting.KeepsWellFormed.call {st : Setting} (h : st.KeepsWellFormed) (name : String)
    {args : List Value} (hargs : ∀ v ∈ args, v.WellFormed) :
    Yields Value.WellFormed (st.call name args) := by
  unfold Setting.call
  split
  · exact yields_error _
  · next f hf => exact (h _ (Entries.mem_of_get? hf) args hargs).mapError _

theorem Setting.yields_lookup (st : Setting) {scope : Scope} (h : scope.WellFormed) (name : String) :
    Yields Value.WellFormed (st.lookup scope name) := by
  unfold Setting.lookup
  split
  · next v _ hv => exact yields_ok (h.lookup hv)
  · exact yields_error _
  · exact yields_ok Value.wellFormed_null

theorem Literal.yields_value (l : Literal) : Yields Value.WellFormed l.value := by
  cases l with
  | null => exact yields_ok Value.wellFormed_null
  | bool b => exact yields_ok (Value.wellFormed_bool b)
  | number x => exact (Value.yields_ofBinary64 _ x).mono fun _ h => h.wellFormed
  | string s => exact yields_ok (Value.wellFormed_string s)

theorem BinaryOp.exists_answer {op : BinaryOp} (h : op.relation?.isSome) (m n : Number) :
    ∃ t, (Value.number m).binary op (.number n) = .ok (.bool t) := by
  have hordered (test : Ordering → Bool) :
      ∃ t, Value.ordered op test (.number m) (.number n) = .ok (.bool t) := by
    obtain ⟨o, ho⟩ := m.exists_compare? n
    have hvalues : (Value.number m).compare? (.number n) = some o := ho
    exact ⟨_, Value.ordered_of_some hvalues op test⟩
  cases op with
  | eq | strictEq | notEq | strictNotEq => exact ⟨_, rfl⟩
  | less | lessOrEqual | greater | greaterOrEqual => exact hordered _
  | _ => cases h

namespace Expr

variable {st : Setting} {scope : Scope}

mutual

theorem yields_eval (hst : st.KeepsWellFormed) (hscope : scope.WellFormed) (e : Expr) :
    Yields Value.WellFormed (e.eval st scope) := by
  cases e with
  | literal l => exact l.yields_value
  | ident n => exact st.yields_lookup hscope n
  | array items =>
    exact (yields_evalItems hst hscope items).bind fun vs h => yields_ok (Value.wellFormed_array.2 h)
  | object entries =>
    refine (yields_evalEntries hst hscope entries).bind fun fields h =>
      yields_ok (Value.wellFormed_object.2 ?_)
    exact ⟨Entries.nodup_keys_ofList fields, fun f hf => h f (Entries.mem_of_mem_ofList hf)⟩
  | member e p => exact (yields_eval hst hscope e).bind fun v h => Value.yields_member h p
  | index e i =>
    exact (yields_eval hst hscope e).bind fun v h => (yields_true _).bind fun w _ => Value.yields_index h w
  | call f args => exact (yields_evalItems hst hscope args).bind fun vs h => hst.call f h
  | method e m args =>
    exact (yields_eval hst hscope e).bind fun v hv => (yields_evalItems hst hscope args).bind fun vs hvs =>
      hst.call m (List.forall_mem_cons.2 ⟨hv, hvs⟩)
  | unary op e =>
    exact (yields_true _).bind fun v _ => (Value.yields_unary op v).mono fun _ h => h.wellFormed
  | binary op a b =>
    cases op with
    | and =>
      refine (yields_eval hst hscope a).bind fun v hv => ?_
      split
      · exact yields_eval hst hscope b
      · exact yields_ok hv
    | or =>
      refine (yields_eval hst hscope a).bind fun v hv => ?_
      split
      · exact yields_ok hv
      · exact yields_eval hst hscope b
    | _ =>
      exact (yields_eval hst hscope a).bind fun v hv =>
        (yields_eval hst hscope b).bind fun w hw => Value.yields_binary hv hw _
  | cond test yes no =>
    refine (yields_true _).bind fun v _ => ?_
    split
    · exact yields_eval hst hscope yes
    · exact yields_eval hst hscope no

theorem yields_evalItems (hst : st.KeepsWellFormed) (hscope : scope.WellFormed) (es : List Expr) :
    Yields (fun vs => ∀ v ∈ vs, v.WellFormed) (evalItems st scope es) := by
  cases es with
  | nil => exact yields_ok (by simp)
  | cons e es =>
    exact (yields_eval hst hscope e).bind fun v hv => (yields_evalItems hst hscope es).bind fun vs hvs =>
      yields_ok (List.forall_mem_cons.2 ⟨hv, hvs⟩)

theorem yields_evalEntries (hst : st.KeepsWellFormed) (hscope : scope.WellFormed)
    (xs : List (String × Expr)) :
    Yields (fun fields => ∀ f ∈ fields, f.2.WellFormed) (evalEntries st scope xs) := by
  cases xs with
  | nil => exact yields_ok (by simp)
  | cons x xs =>
    obtain ⟨k, e⟩ := x
    exact (yields_eval hst hscope e).bind fun v hv =>
      (yields_evalEntries hst hscope xs).bind fun fields hfields =>
        yields_ok (List.forall_mem_cons.2 ⟨hv, hfields⟩)

end

def computes : Expr → Bool
  | .literal (.number _) | .unary .neg _ | .unary .pos _ => true
  | .binary .add _ _ | .binary .sub _ _ | .binary .mul _ _ | .binary .div _ _ | .binary .rem _ _ => true
  | _ => false

theorem yields_computed {e : Expr} (h : e.computes) : Yields Value.Computed (e.eval st scope) := by
  cases e with
  | literal l =>
    cases l with
    | number x => exact Value.yields_ofBinary64 _ x
    | _ => cases h
  | unary op e => exact (yields_true _).bind fun v _ => Value.yields_unary op v
  | binary op a b =>
    cases op with
    | add =>
      exact (yields_true _).bind fun v _ => (yields_true _).bind fun w _ => Value.yields_add v w
    | sub | mul | div | rem =>
      exact (yields_true _).bind fun v _ => (yields_true _).bind fun w _ =>
        Value.yields_arithmetic _ _ v w
    | _ => cases h
  | _ => cases h

theorem yields_rows (entries : List (String × Expr)) :
    Yields (List.Forall₂ (fun e r => e.1 = r.1 ∧ e.2.eval st scope = .ok r.2) entries)
      (evalEntries st scope entries) := by
  induction entries with
  | nil => exact yields_ok .nil
  | cons x xs ih =>
    obtain ⟨k, e⟩ := x
    have hvalue : Yields (fun v => e.eval st scope = .ok v) (e.eval st scope) := fun _ hv => hv
    exact hvalue.bind fun v hv => ih.bind fun rows hrows => yields_ok (.cons ⟨rfl, hv⟩ hrows)

/-- The fields of an object have the names of its entries, each in the place of the first entry and with the
value of the last one that has the name. -/
theorem yields_fields (entries : List (String × Expr)) :
    Yields (fun v => ∃ fields, v = .object fields ∧
        Entries.keys fields = (Entries.keys entries).eraseDups ∧
        ∀ name e, Entries.get? name entries.reverse = some e →
          ∃ w, Entries.get? name fields = some w ∧ e.eval st scope = .ok w)
      ((object entries).eval st scope) := by
  refine (yields_rows entries).bind fun rows hrows => yields_ok ⟨_, rfl, ?_, fun name e he => ?_⟩
  · have hkeys : Entries.keys entries = Entries.keys rows :=
      Entries.keys_eq_of_forall₂ (hrows.imp fun _ _ h => h.1)
    rw [Entries.keys_ofList, hkeys]
  · rw [Entries.get?_ofList]
    exact Entries.get?_of_forall₂ (fun e w => e.eval st scope = .ok w)
      (List.forall₂_reverse_iff.2 hrows) he

/-- Evaluation of well-formed values. If it succeeds, then with a well-formed value. A literal, a sign or an
arithmetic operator has every whole number below `2 ^ 63` in size as an integer. An object has each name of
its entries once, in the place of the first and with the value of the last entry of that name. A comparison
of two numbers always has an answer. -/
theorem eval_keeps_wellFormed (hst : st.KeepsWellFormed) (hscope : scope.WellFormed) (e : Expr) :
    (∀ v, e.eval st scope = .ok v → v.WellFormed) ∧
    (e.computes → ∀ m, e.eval st scope = .ok (.number m) →
      ∀ n : ℤ, m.value = n → n.natAbs < 2 ^ 63 → m = .int n) ∧
    (∀ entries v, e = object entries → e.eval st scope = .ok v → ∃ fields, v = .object fields ∧
      Entries.keys fields = (Entries.keys entries).eraseDups ∧
      ∀ name e, Entries.get? name entries.reverse = some e →
        ∃ w, Entries.get? name fields = some w ∧ e.eval st scope = .ok w) ∧
    (∀ op a b m n, e = binary op a b → op.relation?.isSome → a.eval st scope = .ok (.number m) →
      b.eval st scope = .ok (.number n) → ∃ t, e.eval st scope = .ok (.bool t)) := by
  refine ⟨yields_eval hst hscope e, fun he m hm n hvalue hlt => ?_, ?_, ?_⟩
  · cases yields_computed he _ hm with
    | number h => exact Number.eq_int_of_ofBinary64? h hvalue hlt
  · rintro entries v rfl hv
    exact yields_fields entries v hv
  · rintro op a b m n rfl hop ha hb
    rw [eval_binary ha hb]
    exact BinaryOp.exists_answer hop m n

theorem repeated_name_kept :
    let st : Setting := ⟨Functions.standard, .strict⟩
    let scope := Scope.ofContext [("half", .number (.float ⟨false, 4503599627370496, 1021, by decide⟩)),
      ("xs", .array [.null, .object []])]
    let negated := unary .neg (.literal (.number (.ofInt 2)))
    let test := binary .less (.ident "half") (.ident "half")
    let entries := [("a", negated), ("n", call "len" [.ident "xs"]), ("a", test)]
    (∃ m, negated.eval st scope = .ok (.number m) ∧ m.value = (-2 : ℤ) ∧ m = .int (-2)) ∧
    (∃ t, test.eval st scope = .ok (.bool t)) ∧
    ∃ fields, (object entries).eval st scope = .ok (.object fields) ∧
      (Value.object fields).WellFormed ∧ Entries.keys fields = ["a", "n"] ∧
      ∃ w, Entries.get? "a" fields = some w ∧ test.eval st scope = .ok w := by
  intro st scope negated test entries
  have hst : st.KeepsWellFormed := Functions.standard_keepsWellFormed .strict
  have hhalf : (Number.float ⟨false, 4503599627370496, 1021, by decide⟩).WellFormed := nofun
  have hscope : scope.WellFormed := by
    simp [scope, Scope.WellFormed, Scope.ofContext, hhalf, Entries.keys]
  have hnegated : negated.eval st scope = .ok (.number (.int (-2))) := by
    have htwo : Number.ofBinary64? (.ofInt 2) = some (.int 2) := by decide +kernel
    have hliteral : Literal.value (.number (.ofInt 2)) = .ok (.number (.int 2)) := by
      rw [Literal.value, Value.ofBinary64, htwo]
    have hopposite : Number.ofBinary64? (Binary64.neg (.ofInt 2)) = some (.int (-2)) := by
      decide +kernel
    have hsign : (Value.number (.int 2)).unary .neg = .ok (.number (.int (-2))) := by
      show Value.ofBinary64 (.unary .neg) (Binary64.neg (.ofInt 2)) = _
      rw [Value.ofBinary64, hopposite]
    simp only [negated, eval, hliteral, bind, Except.bind, hsign]
  obtain ⟨v, hv⟩ : ∃ v, (object entries).eval st scope = .ok v := by
    have hok : ((object entries).eval st scope).isOk = true := by decide +kernel
    cases h : (object entries).eval st scope with
    | ok v => exact ⟨v, rfl⟩
    | error err =>
      rw [h] at hok
      cases hok
  obtain ⟨hwell, -, hfields, -⟩ := eval_keeps_wellFormed hst hscope (object entries)
  obtain ⟨fields, rfl, hkeys, hvalues⟩ := hfields entries v rfl hv
  refine ⟨⟨_, hnegated, rfl, ?_⟩, ?_, fields, hv, hwell _ hv, hkeys, hvalues "a" test rfl⟩
  · exact (eval_keeps_wellFormed hst hscope negated).2.1 rfl _ hnegated _ rfl (by decide)
  · exact (eval_keeps_wellFormed hst hscope test).2.2.2 .less _ _ _ _ rfl rfl rfl rfl

end Expr

end Stencil
