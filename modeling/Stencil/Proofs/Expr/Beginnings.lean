import Stencil.Proofs.Expr.Completeness
set_option autoImplicit false

/-!
# Beginnings of expressions

The rows of tokens that can go on to be an expression. Whatever the parser has open can still be
ended, so it goes through these rows and no others, and stops at the first token that leads out of
them. Main statements: `Opened.begins`, by induction on the open frames, and `begins_iff_steps`.
-/

namespace Stencil.Expr

def Accepted (ts : List Token) : Prop := ∃ e, Derives (.of .expr e) ts

/-- With some tokens behind it the row is an expression. -/
def Begins (ts : List Token) : Prop := ∃ us, Accepted (ts ++ us)

variable {ts us : List Token}

theorem Accepted.begins (h : Accepted ts) : Begins ts := ⟨[], by simpa using h⟩

theorem Begins.of_append (us : List Token) (h : Begins (ts ++ us)) : Begins ts := by
  obtain ⟨vs, h⟩ := h
  exact ⟨us ++ vs, by simpa using h⟩

theorem derives_name : Derives (.of .expr (.ident "x")) [.ident "x"] :=
  (Derives.ident "x").whole

theorem Opened.begins {fs : List Frame} {c : Category} {e : Expr} (hf : Opened fs ts)
    (he : Derives (.of c e) us) (hc : Fits c.level fs) : Begins (ts ++ us) := by
  have htight (fs : List Frame) {n : Nat} (hn : 7 ≤ n) : Fits n fs := fits_of_seven_le hn fs
  induction hf generalizing c e us with
  | nil => exact Accepted.begins ⟨e, he.whole⟩
  | unary _ hs ih => simpa using ih (.unary hs (he.loosen hc)) (htight _ (by decide))
  | @binary fs ts ws d s op lhs _ hd hs hl ih =>
    have hop := (Category.binaryOp?_of_mem_operators hs).2
    have hlt := op.level_lt_seven
    have hn : d.next.level = d.level + 1 := Category.level_next (by omega)
    have hr : Derives (.of d.next e) us := he.loosen (by simp only [Fits] at hc; omega)
    simpa using ih (.binary hs hl hr) hd
  | consequent _ hd ht ih =>
    -- The operand is the consequent, so an alternative is missing as well.
    have h := ih (.cond ht he.whole derives_name) (fits_zero_of_fits_one hd)
    exact Begins.of_append [.symbol .colon, .ident "x"] (by simpa using h)
  | alternative _ hd ht hy ih =>
    simpa using ih (.cond ht hy he.whole) (fits_zero_of_fits_one hd)
  | group _ ih =>
    have h := ih (.group he.whole) (htight _ (by decide))
    exact Begins.of_append [.symbol .parenClose] (by simpa using h)
  | index _ hb ih =>
    have h := ih (.index hb he.whole) (htight _ (by decide))
    exact Begins.of_append [.symbol .bracketClose] (by simpa using h)
  | @listing fs ts vs ws kind items _ hh hi ih =>
    have h := ih (hh.build (hi _ _ (.item he.whole))) (htight _ (by decide))
    exact Begins.of_append [.symbol kind.close] (by simpa using h)
  | entry _ hx hk ih =>
    have h := ih (.object (hx _ _ (.oneEntry (hk.entry he.whole)))) (htight _ (by decide))
    exact Begins.of_append [.symbol .braceClose] (by simpa using h)

/-- Every state of the parser can still be led to the end of an expression. -/
theorem Reads.begins {st : State} (h : Reads st ts) : Begins ts := by
  obtain ⟨mode, fs⟩ := st
  have htight {n : Nat} (hn : 7 ≤ n) : Fits n fs := fits_of_seven_le hn fs
  cases mode with
  | operand => exact (Opened.begins h (.ident "x") (htight (by decide))).of_append _
  | complete e callee =>
    obtain ⟨us, vs, rfl, hf, he, -⟩ := h
    exact hf.begins he (htight (by decide))
  | property e =>
    obtain ⟨us, vs, rfl, hf, he⟩ := h
    have hm : Derives (.of .access (.member e "x")) (vs ++ [.symbol .dot, .ident "x"]) := .member he
    have h := hf.begins hm (htight (by decide))
    exact Begins.of_append [.ident "x"] (by simpa using h)
  | key entries =>
    obtain ⟨us, vs, rfl, hf, hx⟩ := h
    have h := hf.begins (.object (hx _ _ .noEntries)) (htight (by decide))
    exact Begins.of_append [.symbol .braceClose] (by simpa using h)
  | afterKey entries key alone =>
    obtain ⟨us, vs, t, rfl, hf, hx, hk, -⟩ := h
    have h := hf.begins (.object (hx _ _ (.oneEntry (hk.entry derives_name)))) (htight (by decide))
    exact Begins.of_append [.symbol .colon, .ident "x", .symbol .braceClose]
      (by simpa using h)

theorem Reads.steps {st st' : State} (h : Reads st ts) (hs : st.steps us = some st') :
    Reads st' (ts ++ us) := by
  induction us generalizing st ts with
  | nil => cases hs; simpa using h
  | cons t us ih =>
    obtain ⟨mid, ht, hs⟩ := Option.bind_eq_some_iff.1 hs
    simpa using ih (h.step ht) hs

/-- The parser goes through the beginnings of expressions, and no other rows. -/
theorem begins_iff_steps : Begins ts ↔ (State.start.steps ts).isSome := by
  constructor
  · rintro ⟨us, e, h⟩
    obtain ⟨st, hs, -⟩ := h.finishes
    rw [State.steps_append] at hs
    obtain ⟨mid, hmid, -⟩ := Option.bind_eq_some_iff.1 hs
    exact Option.isSome_iff_exists.2 ⟨mid, hmid⟩
  · intro h
    obtain ⟨st, hs⟩ := Option.isSome_iff_exists.1 h
    exact (reads_start.steps hs).begins

namespace State

variable {st : State}

theorem begins_append_one_iff (h : start.steps ts = some st) (t : Token) :
    Begins (ts ++ [t]) ↔ (st.step t).isSome := by
  rw [begins_iff_steps, steps_append, h]
  cases hs : st.step t <;> simp [steps, hs]

theorem accepted_iff_finish (h : start.steps ts = some st) : Accepted ts ↔ st.finish.isSome := by
  constructor
  · rintro ⟨e, hd⟩
    obtain ⟨st', hs, hf⟩ := hd.finishes
    obtain rfl := Option.some.inj (h.symm.trans hs)
    exact hf ▸ rfl
  · intro hf
    obtain ⟨e, he⟩ := Option.isSome_iff_exists.1 hf
    exact ⟨e, (reads_start.steps h).finish he⟩

theorem steps_of_run {st' : State} {ls : List Lexeme} (h : st.run ls = .ok st') :
    st.steps (ls.map Lexeme.token) = some st' := by
  induction ls generalizing st with
  | nil => cases h; rfl
  | cons l ls ih =>
    rw [run] at h
    split at h
    · next hs => simpa [steps, hs] using ih h
    · cases h

theorem exists_of_run_error {st' : State} {l : Lexeme} {ls : List Lexeme}
    (h : st.run ls = .error (st', l)) :
    ∃ before after, ls = before ++ l :: after ∧ st.steps (before.map Lexeme.token) = some st' ∧
      st'.step l.token = none := by
  induction ls generalizing st with
  | nil => cases h
  | cons m ls ih =>
    rw [run] at h
    split at h
    · next hs =>
      obtain ⟨before, after, rfl, hsteps, hl⟩ := ih h
      exact ⟨m :: before, after, rfl, by simpa [steps, hs] using hsteps, hl⟩
    · next hs =>
      cases h
      exact ⟨[], ls, rfl, rfl, hs⟩

end State

end Stencil.Expr
