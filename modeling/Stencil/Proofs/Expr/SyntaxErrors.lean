import Mathlib.Data.List.Nodup
import Stencil.Proofs.Expr.Places
set_option autoImplicit false

/-!
# The token at fault

A syntax error stands at the first token with which the text can no longer go on to be an
expression, or at the end of a text that is the beginning of one, and lists what could have stood
there. Main statements: `parse_error_state`, the state in which the parser gives up, and from it
`parse_error_first` and `parse_error_expected`.
-/

namespace Stencil.Expr

open Text

/-- Tokens are not empty and stand one behind the other. -/
structure Ordered (start : Nat) (ls : List Lexeme) : Prop where
  starts : ∀ l ∈ ls, start ≤ l.span.start
  solid : ∀ l ∈ ls, l.span.start < l.span.stop
  apart : ls.Pairwise fun l m => l.span.stop ≤ m.span.start

theorem ordered_lexFrom (start : Nat) (cs : List Char) : Ordered start (lexFrom start cs) := by
  induction cs using lex_induction generalizing start with
  | nil => exact ⟨by simp [lexFrom], by simp [lexFrom], by simp [lexFrom]⟩
  | blank c cs hb ih =>
    rw [lexFrom_blank hb]
    obtain ⟨hstarts, hsolid, hapart⟩ := ih (start + c.utf8Size)
    exact ⟨fun l hl => Nat.le_trans (Nat.le_add_right _ _) (hstarts l hl), hsolid, hapart⟩
  | token c cs hb ih =>
    rw [lexFrom_munch hb]
    have hlt : start < start + byteLength (c :: cs.take (munch c cs).2) := by
      have := c.utf8Size_pos
      rw [byteLength_cons]
      omega
    generalize start + byteLength (c :: cs.take (munch c cs).2) = stop at hlt ih ⊢
    obtain ⟨hstarts, hsolid, hapart⟩ := ih stop
    refine ⟨List.forall_mem_cons.2 ⟨Nat.le_refl _, fun l hl => ?_⟩,
      List.forall_mem_cons.2 ⟨hlt, hsolid⟩, List.pairwise_cons.2 ⟨hstarts, hapart⟩⟩
    exact Nat.le_trans (Nat.le_of_lt hlt) (hstarts l hl)

/-- How many of the tokens end in front of the error. -/
def SyntaxError.position (x : SyntaxError) (ls : List Lexeme) : Nat :=
  ls.countP fun l => l.span.stop ≤ x.span.start

section

variable {x : SyntaxError} {start : Nat} {ls before after : List Lexeme} {l : Lexeme}

theorem position_of_token (h : Ordered start (before ++ l :: after)) (hx : x.span = l.span) :
    x.position (before ++ l :: after) = before.length := by
  obtain ⟨-, hsolid, hapart⟩ := h
  rw [List.pairwise_append, List.pairwise_cons] at hapart
  obtain ⟨-, ⟨hafter, -⟩, hbefore⟩ := hapart
  have hb : before.countP (fun m => m.span.stop ≤ l.span.start) = before.length :=
    List.countP_eq_length.2 fun m hm => decide_eq_true (hbefore m hm l List.mem_cons_self)
  have hl : (l :: after).countP (fun m => m.span.stop ≤ l.span.start) = 0 := by
    refine List.countP_eq_zero.2 (List.forall_mem_cons.2 ⟨?_, fun m hm => ?_⟩)
    · have := hsolid l (by simp)
      simpa using this
    · have := hsolid l (by simp)
      have := hsolid m (by simp [hm])
      have := hafter m hm
      rw [decide_eq_true_eq]
      omega
  rw [SyntaxError.position, hx, List.countP_append, hb, hl, Nat.add_zero]

theorem position_of_end (h : ∀ l ∈ ls, l.span.stop ≤ x.span.start) : x.position ls = ls.length :=
  List.countP_eq_length.2 fun l hl => decide_eq_true (h l hl)

end

theorem stop_le_of_mem_lex {text : String} {l : Lexeme} (h : l ∈ lex text) :
    l.span.stop ≤ text.utf8ByteSize := by
  obtain ⟨part, -, hcovers⟩ := covers_of_mem_lexFrom [] h
  have hstop := (Span.exists_covers_iff.1 ⟨part, hcovers⟩).2.1.le
  rwa [List.nil_append, byteLength_toList] at hstop

variable {text : String} {x : SyntaxError}

/-- The state in which the parser gives up. It has taken the tokens in front of the error and does not
take the next one, or there is none and the text may not end. -/
theorem parse_error_state (h : parse text = .error x) : ∃ st : State,
    State.start.steps ((tokens text.toList).take (x.position (lex text))) = some st ∧
    x.expected = st.expected ∧
    ((∃ l, (lex text)[x.position (lex text)]? = some l ∧ st.step l.token = none ∧
        x.span = l.span ∧ x.found = some l.token) ∨
      (x.position (lex text) = (lex text).length ∧ st.finish = none ∧ x.found = none)) := by
  unfold parse parseLexemes at h
  split at h
  · next st l hrun =>
    cases h
    obtain ⟨before, after, hls, hsteps, hl⟩ := State.exists_of_run_error hrun
    have hordered : Ordered 0 (lex text) := ordered_lexFrom 0 text.toList
    rw [hls] at hordered
    rw [tokens_toList, hls, position_of_token hordered rfl]
    refine ⟨st, ?_, rfl, .inl ⟨l, by simp, hl, rfl, rfl⟩⟩
    rwa [List.map_append, List.take_left' (by simp)]
  · next st hrun =>
    split at h
    · cases h
    · next hfinish =>
      cases h
      rw [position_of_end fun l hl => stop_le_of_mem_lex hl]
      refine ⟨st, ?_, rfl, .inr ⟨rfl, hfinish, rfl⟩⟩
      rw [List.take_of_length_le (by simp [tokens_toList])]
      exact State.steps_of_run hrun

/-- A text that is no expression has one syntax error. The tokens in front of it can go on to be an
expression. Either the error names the token behind them and has its span, and with that token they
can not; or there is none, and the expression is not finished. -/
theorem parse_error_first :
    (∀ text : String, (∃! x, parse text = .error x) ↔ ¬ Accepted (tokens text.toList)) ∧
    ∀ (text : String) (x : SyntaxError), parse text = .error x →
      let k := x.position (lex text)
      Begins ((tokens text.toList).take k) ∧
        ((∃ l, (lex text)[k]? = some l ∧ ¬ Begins ((tokens text.toList).take (k + 1)) ∧
            x.message = "Unexpected " ++ l.token.describe ∧ x.span = l.span ∧
            ∃ part, tokens part = [l.token] ∧ x.span.Covers text.toList part) ∨
          (k = (lex text).length ∧ ¬ Accepted (tokens text.toList) ∧
            x.message = "Unexpected end of expression")) := by
  refine ⟨fun text => ?_, fun text x h => ?_⟩
  · have haccepted : Accepted (tokens text.toList) ↔ ∃ e, parse text = .ok e := by
      simp only [Accepted, parse_eq_ok_iff]
    rw [haccepted]
    cases parse text <;> simp
  · intro k
    obtain ⟨st, hsteps, -, hstuck⟩ := parse_error_state h
    refine ⟨begins_iff_steps.2 (Option.isSome_of_eq_some hsteps), ?_⟩
    rcases hstuck with ⟨l, hl, hstep, hspan, hfound⟩ | ⟨hk, hfinish, hfound⟩
    · obtain ⟨part, hpart, hcovers⟩ := covers_of_mem_lexFrom [] (List.mem_of_getElem? hl)
      have htoken : (tokens text.toList)[k]? = some l.token := by
        rw [tokens_toList, List.getElem?_map, hl]
        rfl
      refine .inl ⟨l, hl, ?_, ?_, hspan, part, hpart, hspan ▸ hcovers⟩
      · rw [List.take_add_one, htoken, Option.toList_some, State.begins_append_one_iff hsteps,
          hstep]
        exact Bool.false_ne_true
      · rw [SyntaxError.message, hfound]
    · have hwhole : (tokens text.toList).take k = tokens text.toList :=
        List.take_of_length_le (by simp [tokens_toList, k, hk])
      refine .inr ⟨hk, ?_, by rw [SyntaxError.message, hfound]; rfl⟩
      rw [← hwhole, State.accepted_iff_finish hsteps, hfinish]
      exact Bool.false_ne_true

theorem crossed_bracket_first :
    let text := "[\"é\", f(a]"
    let ts : List Token := [.symbol .bracketOpen, .string "é", .symbol .comma, .ident "f",
      .symbol .parenOpen, .ident "a"]
    ∃ x, parse text = .error x ∧ x.message = "Unexpected ']'" ∧ x.span = ⟨10, 11⟩ ∧
      Begins ts ∧ ¬ Begins (ts ++ [.symbol .bracketClose]) := by
  intro text ts
  have hlex : lex text = [⟨.symbol .bracketOpen, 0, 1⟩, ⟨.string "é", 1, 5⟩, ⟨.symbol .comma, 5, 6⟩,
      ⟨.ident "f", 7, 8⟩, ⟨.symbol .parenOpen, 8, 9⟩, ⟨.ident "a", 9, 10⟩,
      ⟨.symbol .bracketClose, 10, 11⟩] := by decide +kernel
  obtain ⟨expected, hx⟩ : ∃ ex,
      parse text = .error ⟨⟨10, 11⟩, some (.symbol .bracketClose), ex⟩ := by
    rw [parse, hlex]
    exact ⟨_, rfl⟩
  generalize hdef : (⟨⟨10, 11⟩, some (.symbol .bracketClose), expected⟩ : SyntaxError) = x at hx
  have hk : x.position (lex text) = 6 := by
    rw [hlex, ← hdef]
    rfl
  have h := parse_error_first.2 text x hx
  rw [hk, tokens_toList, hlex] at h
  obtain ⟨hbegins, ⟨l, -, hstuck, -⟩ | ⟨hend, -⟩⟩ := h
  · subst hdef
    exact ⟨_, hx, rfl, rfl, hbegins, hstuck⟩
  · cases hend

namespace Symbol

theorem find?_describe (s : Symbol) : (all.find? fun t => t.describe = s.describe) = some s := by
  cases s <;> decide

theorem describe_ne_end (s : Symbol) : s.describe ≠ "end of expression" := by
  cases s <;> decide

end Symbol

theorem Expectation.describe_injective : Function.Injective Expectation.describe := by
  intro a b h
  cases a with
  | symbol s =>
    cases b with
    | symbol t =>
      have hs := s.find?_describe
      simp only [describe] at h
      rw [h, t.find?_describe] at hs
      rw [Option.some.inj hs]
    | endOfText => exact absurd h s.describe_ne_end
  | endOfText =>
    cases b with
    | symbol t => exact absurd h.symm t.describe_ne_end
    | endOfText => rfl

theorem State.nodup_expected (st : State) : st.expected.Nodup := by
  obtain ⟨mode, fs⟩ := st
  cases mode with
  | operand =>
    match fs with
    | [] => decide
    | f :: fs =>
      cases f with
      | listing kind items => cases kind <;> simp [expected, openers, Listing.close]
      | _ => simp [expected, openers]
  | complete e callee =>
    simp only [expected, closers]
    cases enclosing fs with
    | none => cases callee <;> simp [operators]
    | some f =>
      cases f with
      | listing kind items =>
        cases kind <;> cases callee <;> simp [frameClosers, operators, Listing.close]
      | _ => cases callee <;> simp [frameClosers, operators]
  | property base => exact List.nodup_nil
  | key entries => exact List.nodup_singleton _
  | afterKey entries key alone => cases alone <;> simp [expected]

/-- A syntax error lists the symbols with which the tokens in front of it can go on to be an
expression, and the end if they are one. It lists nothing else, and nothing twice. -/
theorem parse_error_expected (h : parse text = .error x) :
    let before := (tokens text.toList).take (x.position (lex text))
    (∀ s : Symbol, s.describe ∈ x.expectedTexts ↔ Begins (before ++ [.symbol s])) ∧
      ("end of expression" ∈ x.expectedTexts ↔ Accepted before) ∧
      (∀ t ∈ x.expectedTexts, t = "end of expression" ∨ ∃ s : Symbol, t = s.describe) ∧
      x.expectedTexts.Nodup := by
  intro before
  obtain ⟨st, hsteps, hexpected, -⟩ := parse_error_state h
  have hmem (a : Expectation) : a.describe ∈ x.expectedTexts ↔ a ∈ st.expected := by
    rw [SyntaxError.expectedTexts, hexpected]
    exact List.mem_map_of_injective Expectation.describe_injective
  refine ⟨fun s => ?_, ?_, fun t ht => ?_, ?_⟩
  · rw [State.begins_append_one_iff hsteps, State.step_expected]
    exact hmem (.symbol s)
  · rw [State.accepted_iff_finish hsteps, State.finish_expected]
    exact hmem .endOfText
  · obtain ⟨a, -, rfl⟩ := List.mem_map.1 ht
    cases a with
    | symbol s => exact .inr ⟨s, rfl⟩
    | endOfText => exact .inl rfl
  · rw [SyntaxError.expectedTexts, hexpected]
    exact List.Nodup.map Expectation.describe_injective st.nodup_expected

theorem key_expected :
    let text := "g(\x7bb"
    let ts : List Token := [.ident "g", .symbol .parenOpen, .symbol .braceOpen, .ident "b"]
    ∃ x, parse text = .error x ∧ x.expectedTexts = ["':'", "','", "'\x7d'"] ∧
      Begins (ts ++ [.symbol .comma]) ∧ ¬ Begins (ts ++ [.symbol .parenClose]) ∧ ¬ Accepted ts := by
  intro text ts
  have hlex : lex text = [⟨.ident "g", 0, 1⟩, ⟨.symbol .parenOpen, 1, 2⟩,
      ⟨.symbol .braceOpen, 2, 3⟩, ⟨.ident "b", 3, 4⟩] := by decide +kernel
  let x : SyntaxError := ⟨⟨4, 4⟩, none, [.symbol .colon, .symbol .comma, .symbol .braceClose]⟩
  have hx : parse text = .error x := by
    rw [parse, hlex]
    rfl
  have hk : x.position (lex text) = 4 := by
    rw [hlex]
    rfl
  have h := parse_error_expected hx
  rw [hk, tokens_toList, hlex] at h
  obtain ⟨hsymbol, hend, -⟩ := h
  refine ⟨x, hx, rfl, (hsymbol .comma).1 ?_, fun hp => ?_, fun ha => ?_⟩
  · decide
  · exact absurd ((hsymbol .parenClose).2 hp) (by decide)
  · exact absurd (hend.2 ha) (by decide)

end Stencil.Expr
