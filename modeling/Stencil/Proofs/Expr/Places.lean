import Mathlib.Data.List.DropRight
import Stencil.Proofs.Expr.Beginnings
import Stencil.Proofs.Expr.TokenTexts
import Stencil.Proofs.Text.Boundaries
set_option autoImplicit false

namespace Stencil.Expr

open Text

theorem lexFrom_eq_nil_iff {cs : List Char} {start : Nat} :
    lexFrom start cs = [] ↔ ∀ c ∈ cs, isLexBlank c = true := by
  induction cs generalizing start with
  | nil => simp [lexFrom]
  | cons c cs ih =>
    cases hb : isLexBlank c with
    | true => simp [lexFrom_blank hb, ih, hb]
    | false => simp [lexFrom_munch hb, hb]

/-- Each token covers a part of the text, and that part alone is read as the token. -/
theorem alone_of_mem_lexFrom {cs : List Char} {l : Lexeme} (pre : List Char)
    (h : l ∈ lexFrom (byteLength pre) cs) :
    ∃ part, lexFrom 0 part = [⟨l.token, 0, byteLength part⟩] ∧ l.span.Covers (pre ++ cs) part := by
  induction cs using lex_induction generalizing pre with
  | nil => simp [lexFrom] at h
  | blank c cs hb ih =>
    have hpre : byteLength pre + c.utf8Size = byteLength (pre ++ [c]) := by simp
    rw [lexFrom_blank hb, hpre] at h
    simpa using ih _ h
  | token c cs hb ih =>
    have hcs := List.take_append_drop (munch c cs).2 cs
    rw [lexFrom_munch hb, ← byteLength_append] at h
    obtain rfl | h := List.mem_cons.1 h
    · refine ⟨c :: cs.take (munch c cs).2, ?_, pre, cs.drop (munch c cs).2, ?_, ?_⟩
      · rw [lexFrom_alone hb, Nat.zero_add]
      · simp
      · rw [byteLength_append]
    · have hrest := ih _ h
      simpa using hrest

theorem covers_of_mem_lexFrom {cs : List Char} {l : Lexeme} (pre : List Char)
    (h : l ∈ lexFrom (byteLength pre) cs) :
    ∃ part, tokens part = [l.token] ∧ l.span.Covers (pre ++ cs) part := by
  obtain ⟨part, hpart, hcovers⟩ := alone_of_mem_lexFrom pre h
  refine ⟨part, ?_, hcovers⟩
  rw [tokens, hpart, List.map_singleton]

theorem exists_blanks_of_getLast? {cs : List Char} {start : Nat} {l : Lexeme}
    (h : (lexFrom start cs).getLast? = some l) :
    ∃ body blanks, cs = body ++ blanks ∧ (∀ c ∈ blanks, isLexBlank c = true) ∧
      l.span.stop = start + byteLength body := by
  induction cs using lex_induction generalizing start with
  | nil => simp [lexFrom] at h
  | blank c cs hb ih =>
    rw [lexFrom_blank hb] at h
    obtain ⟨body, blanks, rfl, hblanks, hstop⟩ := ih h
    exact ⟨c :: body, blanks, rfl, hblanks, by simp [hstop, Nat.add_assoc]⟩
  | token c cs hb ih =>
    have hcs := List.take_append_drop (munch c cs).2 cs
    rw [lexFrom_munch hb] at h
    cases hrest : lexFrom (start + byteLength (c :: cs.take (munch c cs).2))
        (cs.drop (munch c cs).2) with
    | nil =>
      rw [hrest] at h
      cases h
      exact ⟨c :: cs.take (munch c cs).2, cs.drop (munch c cs).2, by simp,
        lexFrom_eq_nil_iff.1 hrest, rfl⟩
    | cons m ms =>
      rw [hrest, List.getLast?_cons_cons, ← hrest] at h
      obtain ⟨body, blanks, hbody, hblanks, hstop⟩ := ih h
      refine ⟨c :: cs.take (munch c cs).2 ++ body, blanks, ?_, hblanks, ?_⟩
      · rw [List.append_assoc, ← hbody, List.cons_append, hcs]
      · rw [hstop, byteLength_append, Nat.add_assoc]

theorem lexFrom_append_blanks {ys : List Char} (hys : ∀ c ∈ ys, isLexBlank c = true)
    {xs : List Char} (h : Readable (tokens (xs ++ ys))) (start : Nat) :
    lexFrom start (xs ++ ys) = lexFrom start xs := by
  have hblank : ∀ c ∈ ys, isBlank c = true := fun c hc =>
    isSlotBlank_isBlank (isLexBlank_isSlotBlank (hys c hc))
  induction xs using lex_induction generalizing start with
  | nil => rw [List.nil_append, lexFrom_eq_nil_iff.2 hys, lexFrom_eq_nil_iff.2 (List.forall_mem_nil _)]
  | blank c xs hb ih =>
    rw [List.cons_append, tokens_blank hb] at h
    rw [List.cons_append, lexFrom_blank hb, lexFrom_blank hb, ih h]
  | token c xs hb ih =>
    rw [List.cons_append, tokens_token hb] at h
    have hm : munch c (xs ++ ys) = munch c xs := munch_append_blanks hblank c xs fun text ht =>
      h text (ht ▸ List.mem_cons_self)
    rw [hm, List.drop_append_of_le_length (munch_le c xs)] at h
    rw [List.cons_append, lexFrom_munch hb, lexFrom_munch hb, hm,
      List.take_append_of_le_length (munch_le c xs), List.drop_append_of_le_length (munch_le c xs),
      ih fun text ht => h text (List.mem_cons_of_mem _ ht)]

theorem getLast?_rdropWhile {p : Char → Bool} (cs : List Char) :
    ∀ c ∈ (cs.rdropWhile p).getLast?, p c = false := by
  intro c hc
  have hne : cs.rdropWhile p ≠ [] := List.getLast?_isSome.1 (hc ▸ rfl)
  rw [Option.mem_def, List.getLast?_eq_some_getLast hne, Option.some.injEq] at hc
  simpa [hc] using List.rdropWhile_last_not p cs hne

theorem stop_of_getLast? {cs : List Char} (hr : Readable (tokens cs)) {start : Nat} {l : Lexeme}
    (h : (lexFrom start cs).getLast? = some l) :
    l.span.stop = start + byteLength (cs.rdropWhile isLexBlank) := by
  have hcs : cs.rdropWhile isLexBlank ++ cs.rtakeWhile isLexBlank = cs :=
    List.rdropWhile_append_rtakeWhile
  have hlast := getLast?_rdropWhile (p := isLexBlank) cs
  generalize cs.rdropWhile isLexBlank = body at hcs hlast ⊢
  have hblanks : ∀ c ∈ cs.rtakeWhile isLexBlank, isLexBlank c = true :=
    fun c => List.mem_rtakeWhile_imp
  rw [← hcs] at hr h
  rw [lexFrom_append_blanks hblanks hr] at h
  obtain ⟨first, more, rfl, hmore, hstop⟩ := exists_blanks_of_getLast? h
  -- the body ends with a token, so no blanks are left behind its last one
  obtain rfl | ⟨more, c, rfl⟩ := more.eq_nil_or_concat
  · rw [hstop, List.append_nil]
  · have hc := hmore c (by simp)
    rw [hlast c (by simp)] at hc
    cases hc

namespace State

theorem step_error (st : State) (text : String) : st.step (.error text) = none := by
  obtain ⟨mode, fs⟩ := st
  cases mode <;> rfl

theorem mem_of_run_error {st st' : State} {l : Lexeme} {ls : List Lexeme}
    (h : st.run ls = .error (st', l)) : l ∈ ls := by
  obtain ⟨before, after, rfl, -⟩ := exists_of_run_error h
  exact List.mem_append_right before List.mem_cons_self

theorem readable_of_run {st st' : State} {ls : List Lexeme} (h : st.run ls = .ok st') :
    Readable (ls.map Lexeme.token) := by
  induction ls generalizing st with
  | nil => simp [Readable]
  | cons m ls ih =>
    rw [run] at h
    split at h
    · next st'' hs =>
      intro text ht
      obtain ht | ht := List.mem_cons.1 ht
      · rw [← ht, step_error] at hs
        cases hs
      · exact ih h text ht
    · cases h

end State

/-- The text ends with a blank behind something else. -/
def EndsBlank (cs : List Char) : Prop :=
  (∃ c ∈ cs.getLast?, isLexBlank c = true) ∧ ∃ c ∈ cs, isLexBlank c = false

theorem byteLength_rdropWhile_lt_iff {p : Char → Bool} (cs : List Char) :
    byteLength (cs.rdropWhile p) < byteLength cs ↔ ∃ c ∈ cs.getLast?, p c = true := by
  have hlength : byteLength cs =
      byteLength (cs.rdropWhile p) + byteLength (cs.rtakeWhile p) := by
    rw [← byteLength_append, List.rdropWhile_append_rtakeWhile]
  have hnil : cs.rtakeWhile p = [] ↔ ¬ ∃ c ∈ cs.getLast?, p c = true := by
    rw [List.rtakeWhile_eq_nil_iff]
    cases cs with
    | nil => simp
    | cons c cs => simp [List.getLast?_eq_some_getLast]
  have hzero := @byteLength_eq_zero_iff (cs.rtakeWhile p)
  rw [hnil] at hzero
  by_cases hlast : ∃ c ∈ cs.getLast?, p c = true
  · have := mt hzero.1 (not_not_intro hlast)
    exact iff_of_true (by omega) hlast
  · have := hzero.2 hlast
    exact iff_of_false (by omega) hlast

/-- Where a text that is no expression is at fault: at one of its tokens, or else at its end. From there
the error reaches back to the end of the last token, over the blanks behind it. -/
theorem parse_error_place {text : String} {x : SyntaxError} (h : parse text = .error x) :
    Boundary text.toList x.span.start ∧ Boundary text.toList x.span.stop ∧
      (x.span.stop < x.span.start ↔ x.found = none ∧ EndsBlank text.toList) := by
  unfold parse parseLexemes at h
  split at h
  · next st l hrun =>
    cases h
    have hmem := State.mem_of_run_error hrun
    obtain ⟨part, -, hcovers⟩ := covers_of_mem_lexFrom [] hmem
    obtain ⟨hstart, hstop, hle⟩ := Span.exists_covers_iff.1 ⟨part, hcovers⟩
    exact ⟨hstart, hstop, iff_of_false (Nat.not_lt_of_le hle) (by simp)⟩
  · next st hrun =>
    split at h
    · cases h
    · cases h
      have hend : Boundary text.toList text.utf8ByteSize :=
        ⟨text.toList, [], by simp, (byteLength_toList text).symm⟩
      cases hlast : (lex text).getLast? with
      | none =>
        have hblank := lexFrom_eq_nil_iff.1 (List.getLast?_eq_none_iff.1 hlast)
        simp only [endSpan, hlast, Option.map_none, Option.getD_none]
        refine ⟨hend, hend, iff_of_false (Nat.lt_irrefl _) ?_⟩
        rintro ⟨-, -, c, hc, hb⟩
        rw [hblank c hc] at hb
        cases hb
      | some l =>
        have hstop := stop_of_getLast? (State.readable_of_run hrun) hlast
        have hne : lexFrom 0 text.toList ≠ [] := List.getLast?_isSome.1 (hlast ▸ rfl)
        have hsome : ∃ c ∈ text.toList, isLexBlank c = false := by
          simpa [lexFrom_eq_nil_iff] using hne
        rw [Nat.zero_add] at hstop
        simp only [endSpan, hlast, Option.map_some, Option.getD_some, hstop]
        refine ⟨hend, ?_, ?_⟩
        · exact ⟨_, _, List.rdropWhile_append_rtakeWhile.symm, rfl⟩
        · rw [← byteLength_toList, byteLength_rdropWhile_lt_iff]
          simp [EndsBlank, hsome]

theorem parse_error_found {text : String} {x : SyntaxError} (h : parse text = .error x) :
    (∃ token, x.found = some token ∧ ⟨token, x.span⟩ ∈ lex text) ∨
      (x.found = none ∧ x.span.start = byteLength text.toList) := by
  unfold parse parseLexemes at h
  split at h
  · next st l hrun =>
    cases h
    exact .inl ⟨l.token, rfl, State.mem_of_run_error hrun⟩
  · split at h
    · cases h
    · cases h
      exact .inr ⟨rfl, (byteLength_toList text).symm⟩

end Stencil.Expr
