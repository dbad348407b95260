import Mathlib.Data.List.Induction
import Stencil.Eval.Functions
import Stencil.Eval.Operators
import Stencil.Proofs.Number.Values
import Stencil.Proofs.Value.Equality
set_option autoImplicit false

namespace Stencil

namespace Entries

variable {α : Type}

theorem ofList_append_one (es : List (String × α)) (e : String × α) :
    ofList (es ++ [e]) = insert e.1 e.2 (ofList es) := by
  simp [ofList]

theorem mem_insert {name : String} {x : α} {e : String × α} {es : List (String × α)}
    (h : e ∈ insert name x es) : e = (name, x) ∨ e ∈ es := by
  induction es with
  | nil => exact .inl (by simpa [insert] using h)
  | cons f es ih =>
    obtain ⟨k, y⟩ := f
    by_cases hk : k = name
    · subst hk
      simp only [insert, if_true, List.mem_cons] at h
      exact h.imp_right (List.mem_cons_of_mem _)
    · simp only [insert, hk, if_false, List.mem_cons] at h
      obtain rfl | h := h
      · exact .inr List.mem_cons_self
      · exact (ih h).imp_right (List.mem_cons_of_mem _)

theorem mem_of_mem_ofList {e : String × α} {es : List (String × α)} (h : e ∈ ofList es) : e ∈ es := by
  induction es using List.reverseRecOn with
  | nil => cases h
  | append_singleton es f ih =>
    rw [ofList_append_one] at h
    obtain rfl | h := mem_insert h
    · simp
    · exact List.mem_append_left _ (ih h)

/-- Each name stands once, in the place where it was written first. -/
theorem keys_ofList (es : List (String × α)) : keys (ofList es) = (keys es).eraseDups := by
  induction es using List.reverseRecOn with
  | nil => rfl
  | append_singleton es e ih =>
    have hkeys : keys (es ++ [e]) = keys es ++ [e.1] := by simp [keys]
    rw [ofList_append_one, keys_insert, ih, hkeys, List.eraseDups_append]
    by_cases h : e.1 ∈ keys es <;> simp [h, List.removeAll, List.mem_eraseDups, List.eraseDups_cons]

theorem nodup_keys_ofList (es : List (String × α)) : (keys (ofList es)).Nodup := by
  induction es using List.reverseRecOn with
  | nil => exact List.nodup_nil
  | append_singleton es e ih =>
    rw [ofList_append_one]
    exact nodup_keys_insert _ _ ih

theorem get?_ofList (name : String) (es : List (String × α)) :
    get? name (ofList es) = get? name es.reverse := by
  induction es using List.reverseRecOn with
  | nil => rfl
  | append_singleton es e ih =>
    rw [ofList_append_one, get?_insert, ih, List.reverse_append, List.reverse_singleton,
      List.singleton_append, get?]
    simp only [eq_comm]

section

variable {β : Type} {es : List (String × α)} {fs : List (String × β)}

theorem keys_eq_of_forall₂ (h : List.Forall₂ (fun e f => e.1 = f.1) es fs) : keys es = keys fs := by
  induction h with
  | nil => rfl
  | cons h _ ih => exact congrArg₂ List.cons h ih

theorem get?_of_forall₂ (R : α → β → Prop) {name : String} {x : α}
    (h : List.Forall₂ (fun e f => e.1 = f.1 ∧ R e.2 f.2) es fs) (hx : get? name es = some x) :
    ∃ y, get? name fs = some y ∧ R x y := by
  induction h with
  | nil => cases hx
  | cons h _ ih =>
    obtain ⟨hname, hR⟩ := h
    rw [get?, hname] at hx
    rw [get?]
    split at hx
    · next heq =>
      cases hx
      exact ⟨_, if_pos heq, hR⟩
    · next hne =>
      rw [if_neg hne]
      exact ih hx

end

end Entries

def Yields {ε α : Type} (P : α → Prop) (x : Except ε α) : Prop := ∀ a, x = .ok a → P a

section

variable {ε δ α β : Type} {P P' : α → Prop} {Q : β → Prop}

theorem yields_ok {a : α} (h : P a) : Yields P (.ok a : Except ε α) := by
  rintro _ ⟨⟩
  exact h

theorem yields_error (err : ε) : Yields P (.error err) := by
  rintro _ ⟨⟩

theorem yields_true (x : Except ε α) : Yields (fun _ => True) x := fun _ _ => trivial

theorem Yields.mono {x : Except ε α} (h : Yields P x) (hP : ∀ a, P a → P' a) : Yields P' x :=
  fun a ha => hP a (h a ha)

theorem Yields.bind {x : Except ε α} {f : α → Except ε β} (h : Yields P x)
    (hf : ∀ a, P a → Yields Q (f a)) : Yields Q (x >>= f) := by
  cases x with
  | ok a => exact hf a (h a rfl)
  | error err => exact yields_error err

theorem Yields.mapError {x : Except ε α} (h : Yields P x) (f : ε → δ) : Yields P (x.mapError f) := by
  cases x with
  | ok a => exact yields_ok (h a rfl)
  | error err => exact yields_error _

end

namespace Number

/-- If it is an integer, then one of 64 bits. A float is finite by its type. -/
def WellFormed (m : Number) : Prop := ∀ n, m = .int n → FitsWord n

theorem eq_int_of_ofBinary64? {b : Binary64} {m : Number} {n : ℤ} (h : ofBinary64? b = some m)
    (hvalue : m.value = n) (hlt : n.natAbs < 2 ^ 63) : m = .int n := by
  obtain ⟨k, rfl, -⟩ | ⟨x, rfl, hx⟩ := ofBinary64?_eq_some h
  · rw [value] at hvalue
    rw [Rat.intCast_inj.1 hvalue]
  · exact absurd hlt (not_lt.2 (hx n hvalue))

theorem wellFormed_of_ofBinary64? {b : Binary64} {m : Number} (h : ofBinary64? b = some m) :
    m.WellFormed := by
  obtain ⟨n, rfl, hn⟩ | ⟨x, rfl, -⟩ := ofBinary64?_eq_some h
  · rintro _ ⟨⟩
    exact ⟨by omega, by omega⟩
  · nofun

theorem wellFormed_ofCount (n : Nat) : (ofCount n).WellFormed := by
  rintro _ ⟨⟩
  have hlt := n.toUInt64.toNat_lt
  exact ⟨by omega, by omega⟩

end Number

namespace Value

/-- All integers in the value have 64 bits and no object in it has two fields of one name. -/
inductive WellFormed : Value → Prop where
  | intro {v : Value} : v.names.Nodup → (∀ n, v = .number n → n.WellFormed) →
    (∀ w ∈ v.parts, WellFormed w) → WellFormed v

theorem wellFormed_iff {v : Value} : v.WellFormed ↔
    v.names.Nodup ∧ (∀ n, v = .number n → n.WellFormed) ∧ ∀ w ∈ v.parts, w.WellFormed :=
  ⟨fun h => by cases h with | intro hn hm hp => exact ⟨hn, hm, hp⟩, fun h => .intro h.1 h.2.1 h.2.2⟩

@[simp] theorem wellFormed_null : null.WellFormed :=
  .intro List.nodup_nil nofun (by simp [parts])

@[simp] theorem wellFormed_bool (b : Bool) : (bool b).WellFormed :=
  .intro List.nodup_nil nofun (by simp [parts])

@[simp] theorem wellFormed_string (s : String) : (string s).WellFormed :=
  .intro List.nodup_nil nofun (by simp [parts])

@[simp] theorem wellFormed_number {n : Number} : (number n).WellFormed ↔ n.WellFormed :=
  ⟨fun h => (wellFormed_iff.1 h).2.1 n rfl,
    fun h => .intro List.nodup_nil (by rintro _ ⟨⟩; exact h) (by simp [parts])⟩

@[simp] theorem wellFormed_array {items : List Value} :
    (array items).WellFormed ↔ ∀ x ∈ items, x.WellFormed := by
  rw [wellFormed_iff]
  simp [names, parts]

@[simp] theorem wellFormed_object {fields : List (String × Value)} :
    (object fields).WellFormed ↔
      (Entries.keys fields).Nodup ∧ ∀ f ∈ fields, f.2.WellFormed := by
  rw [wellFormed_iff, parts, List.forall_mem_map]
  simp [names]

theorem wellFormed_getD {o : Option Value} (h : ∀ v ∈ o, v.WellFormed) : (o.getD null).WellFormed := by
  cases o with
  | none => exact wellFormed_null
  | some v => exact h v rfl

theorem wellFormed_field {fields : List (String × Value)} (h : (object fields).WellFormed)
    (name : String) : ((Entries.get? name fields).getD null).WellFormed :=
  wellFormed_getD fun _ hv => (wellFormed_object.1 h).2 _ (Entries.mem_of_get? hv)

/-- What an operator makes: a truth value, a text, or a number in the form of a result. -/
inductive Computed : Value → Prop where
  | bool (b : Bool) : Computed (.bool b)
  | string (s : String) : Computed (.string s)
  | number {b : Binary64} {m : Number} : Number.ofBinary64? b = some m → Computed (.number m)

theorem Computed.wellFormed {v : Value} (h : v.Computed) : v.WellFormed := by
  cases h with
  | bool b => exact wellFormed_bool b
  | string s => exact wellFormed_string s
  | number h => exact wellFormed_number.2 (Number.wellFormed_of_ofBinary64? h)

theorem yields_ofBinary64 (origin : Origin) (x : Binary64) :
    Yields Computed (ofBinary64 origin x) := by
  intro v h
  obtain ⟨n, hn, rfl⟩ := ofBinary64_ok h
  exact .number hn

theorem yields_unary (op : UnaryOp) (v : Value) : Yields Computed (v.unary op) := by
  unfold unary
  split
  · exact yields_ok (.bool _)
  · exact yields_ofBinary64 _ _
  · exact yields_ofBinary64 _ _
  · exact yields_error _

theorem yields_add (v w : Value) : Yields Computed (v.add w) := by
  unfold add
  split
  · exact yields_ofBinary64 _ _
  · split
    · exact (yields_true _).bind fun s _ => (yields_true _).bind fun t _ => yields_ok (.string _)
    · exact yields_error _

theorem yields_arithmetic (op : BinaryOp) (apply : Binary64 → Binary64 → Binary64) (v w : Value) :
    Yields Computed (arithmetic op apply v w) := by
  unfold arithmetic
  split
  · exact yields_ofBinary64 _ _
  · exact yields_error _

theorem yields_ordered (op : BinaryOp) (test : Ordering → Bool) (v w : Value) :
    Yields Computed (ordered op test v w) := by
  unfold ordered
  split
  · exact yields_ok (.bool _)
  · exact yields_error _

section

variable {v w : Value} (hv : v.WellFormed) (hw : w.WellFormed)

include hv

theorem yields_member (property : String) : Yields WellFormed (v.member property) := by
  have hcount (n : Nat) : (number (.ofCount n)).WellFormed :=
    wellFormed_number.2 (Number.wellFormed_ofCount n)
  unfold member
  split
  · exact yields_ok (wellFormed_field hv property)
  · split
    · exact yields_ok (hcount _)
    · exact yields_error _
  · split
    · exact yields_ok (hcount _)
    · exact yields_error _
  · exact yields_error _

theorem yields_index (w : Value) : Yields WellFormed (v.index w) := by
  unfold index
  split
  · next items n =>
    refine yields_ok (wellFormed_getD fun x hx => wellFormed_array.1 hv x ?_)
    obtain ⟨i, -, hi⟩ := Option.bind_eq_some_iff.1 hx
    exact List.mem_of_getElem? hi
  · exact yields_ok (wellFormed_field hv _)
  · exact yields_error _

include hw

theorem yields_binary (op : BinaryOp) : Yields WellFormed (v.binary op w) := by
  cases op with
  | add => exact (yields_add v w).mono fun _ h => h.wellFormed
  | sub | mul | div | rem => exact (yields_arithmetic _ _ v w).mono fun _ h => h.wellFormed
  | eq | notEq | strictEq | strictNotEq => exact yields_ok (wellFormed_bool _)
  | less | lessOrEqual | greater | greaterOrEqual =>
    exact (yields_ordered _ _ v w).mono fun _ h => h.wellFormed
  | and | or =>
    refine yields_ok ?_
    split
    · assumption
    · assumption

end

end Value

namespace Functions

open Value

theorem yields_onText (f : List Char → List Char) (args : List Value) :
    Yields WellFormed (onText f args) :=
  (yields_true _).bind fun _ _ => yields_ok (wellFormed_string _)

section

variable {args : List Value} (h : ∀ v ∈ args, v.WellFormed)

include h

theorem yields_arg (i : Nat) : Yields WellFormed (arg args i) := by
  unfold arg
  split
  · next v hv => exact yields_ok (h v (List.mem_of_getElem? hv))
  · exact yields_error _

theorem yields_len : Yields WellFormed (len args) := by
  refine (yields_arg h 0).bind fun v _ => ?_
  split
  · exact yields_ok (wellFormed_number.2 (Number.wellFormed_ofCount _))
  · exact yields_error _

theorem yields_join : Yields WellFormed (join args) := by
  refine (yields_arg h 0).bind fun v _ => ?_
  split
  · dsimp only
    split
    · exact (yields_true _).bind fun _ _ => (yields_true _).bind fun _ _ =>
        yields_ok (wellFormed_string _)
    · exact (yields_true _).bind fun _ _ => (yields_true _).bind fun _ _ =>
        yields_ok (wellFormed_string _)
  · exact yields_error _

theorem yields_keys : Yields WellFormed (keys args) := by
  refine (yields_arg h 0).bind fun v _ => ?_
  split
  · exact yields_ok (wellFormed_array.2 (List.forall_mem_map.2 fun _ _ => wellFormed_string _))
  · exact yields_error _

theorem yields_contains : Yields WellFormed (contains args) := by
  refine (yields_arg h 1).bind fun w _ => (yields_arg h 0).bind fun v _ => ?_
  split
  · exact yields_ok (wellFormed_bool _)
  · exact yields_ok (wellFormed_bool _)
  · exact yields_ok (wellFormed_bool _)
  · exact yields_error _

theorem yields_str : Yields WellFormed (str args) := by
  refine (yields_arg h 0).bind fun v _ => ?_
  split
  · exact yields_ok (wellFormed_string _)
  · exact yields_error _

theorem yields_fallback : Yields WellFormed (fallback args) := by
  refine (yields_arg h 0).bind fun v hv => ?_
  split
  · exact yields_arg h 1
  · exact yields_ok hv

theorem yields_json : Yields WellFormed (json args) :=
  (yields_arg h 0).bind fun _ _ => yields_ok (wellFormed_string _)

theorem yields_builtin {f : String × (List Value → Except ArgumentError Value)}
    (hf : f ∈ builtins) : Yields WellFormed (f.2 args) := by
  simp only [builtins, List.mem_cons, List.not_mem_nil, or_false] at hf
  rcases hf with rfl | rfl | rfl | rfl | rfl | rfl | rfl | rfl | rfl | rfl
  · exact yields_len h
  · exact yields_onText _ args
  · exact yields_onText _ args
  · exact yields_onText _ args
  · exact yields_join h
  · exact yields_keys h
  · exact yields_contains h
  · exact yields_str h
  · exact yields_fallback h
  · exact yields_json h

end

end Functions

end Stencil
