import Stencil.Proofs.Expr.SyntaxErrors
set_option autoImplicit false

/-!
# Blanks between tokens

The tokens of a text leave out nothing but blanks. How many of these there are between two tokens makes no
difference to what is read, where every token is readable. Main statements: `blank_or_covered`,
`tokens_insert_blanks` and `lex_loses_blanks_only`.
-/

namespace Stencil.Expr

open Text

theorem blank_or_covered {cs before behind : List Char} {c : Char} (h : cs = before ++ c :: behind)
    (start : Nat) : isLexBlank c = true ∨ ∃ l ∈ lexFrom start cs,
      l.span.start ≤ start + byteLength before ∧
        start + byteLength before + c.utf8Size ≤ l.span.stop := by
  induction cs using lex_induction generalizing start before with
  | nil => simp at h
  | blank d cs hb ih =>
    rw [lexFrom_blank hb]
    cases before with
    | nil =>
      obtain ⟨rfl, -⟩ := List.cons.inj h
      exact .inl hb
    | cons e before =>
      obtain ⟨rfl, hcs⟩ := List.cons.inj h
      have hrest := ih hcs (start + d.utf8Size)
      rwa [Nat.add_assoc start] at hrest
  | token d cs hb ih =>
    have hcs := List.take_append_drop (munch d cs).2 cs
    rw [lexFrom_munch hb]
    generalize (munch d cs).1 = token
    generalize (munch d cs).2 = n at ih hcs ⊢
    rw [← hcs, ← List.cons_append] at h
    -- the character stands behind the first token, or in it
    have hrest (zs : List Char) (hbefore : before = d :: cs.take n ++ zs)
        (hdrop : cs.drop n = zs ++ c :: behind) := ih hdrop (start + byteLength (d :: cs.take n))
    simp only [List.exists_mem_cons_iff]
    obtain ⟨zs, hbefore, hdrop⟩ | ⟨zs, hpart, hdrop⟩ := List.append_eq_append_iff.1 h
    · have hlater := hrest zs hbefore hdrop
      rw [Nat.add_assoc start, ← byteLength_append, ← hbefore] at hlater
      exact hlater.imp_right .inr
    · cases zs with
      | nil =>
        rw [List.append_nil] at hpart
        have hlater := hrest [] (by rw [List.append_nil, hpart]) hdrop.symm
        rw [byteLength_nil, Nat.add_zero, hpart] at hlater
        rw [hpart]
        exact hlater.imp_right .inr
      | cons e zs =>
        obtain ⟨rfl, -⟩ := List.cons.inj hdrop
        refine .inr (.inl ⟨Nat.le_add_right _ _, ?_⟩)
        rw [hpart, byteLength_append, byteLength_cons]
        omega

/-- No token lies across the position. -/
def Seam (ls : List Lexeme) (n : Nat) : Prop := ∀ l ∈ ls, l.span.stop ≤ n ∨ n ≤ l.span.start

theorem length_le_of_byteLength {xs ys : List Char} {n : Nat} (hn : n ≤ (xs ++ ys).length)
    (h : byteLength ((xs ++ ys).take n) ≤ byteLength xs) : n ≤ xs.length := by
  rw [List.take_append, byteLength_append] at h
  rw [List.length_append] at hn
  by_contra hlt
  rw [List.take_of_length_le (by omega)] at h
  have hnil : ys.take (n - xs.length) = [] := byteLength_eq_zero_iff.1 (by omega)
  have hlength := congrArg List.length hnil
  rw [List.length_take, List.length_nil] at hlength
  omega

theorem Seam.behind {c : Char} {xs ys : List Char} {start : Nat} (hb : isLexBlank c = false)
    (h : Seam (lexFrom start (c :: (xs ++ ys))) (start + byteLength (c :: xs))) :
    (munch c (xs ++ ys)).2 ≤ xs.length ∧ ∃ stop, Seam
      (lexFrom stop (xs.drop (munch c (xs ++ ys)).2 ++ ys))
      (stop + byteLength (xs.drop (munch c (xs ++ ys)).2)) := by
  have hle := munch_le c (xs ++ ys)
  rw [lexFrom_munch hb] at h
  generalize (munch c (xs ++ ys)).2 = n at h hle ⊢
  obtain ⟨hfirst, hrest⟩ := List.forall_mem_cons.1 h
  have hn : n ≤ xs.length := by
    refine length_le_of_byteLength hle ?_
    have := c.utf8Size_pos
    simp only [byteLength_cons] at hfirst
    omega
  refine ⟨hn, start + byteLength (c :: xs.take n), ?_⟩
  rw [List.take_append_of_le_length hn, List.drop_append_of_le_length hn] at hrest
  rwa [Nat.add_assoc, ← byteLength_append, List.cons_append, List.take_append_drop]

/-- Blanks between two readable tokens, or at one of the ends, make no difference to the tokens. -/
theorem tokens_insert_blanks {xs ys bs : List Char} {start : Nat}
    (hr : Readable (tokens (xs ++ ys)))
    (hs : Seam (lexFrom start (xs ++ ys)) (start + byteLength xs))
    (hbs : ∀ c ∈ bs, isLexBlank c = true) : tokens (xs ++ (bs ++ ys)) = tokens (xs ++ ys) := by
  generalize hcs : xs ++ ys = cs at hr hs ⊢
  induction cs using lex_induction generalizing xs start with
  | nil =>
    obtain ⟨rfl, rfl⟩ := List.append_eq_nil_iff.1 hcs
    exact tokens_blanks_append hbs []
  | blank c cs hb ih =>
    cases xs with
    | nil => exact hcs ▸ tokens_blanks_append hbs ys
    | cons x xs =>
      rw [List.cons_append, List.cons.injEq] at hcs
      obtain ⟨rfl, hcs⟩ := hcs
      rw [tokens_blank hb] at hr
      rw [lexFrom_blank hb, byteLength_cons, ← Nat.add_assoc] at hs
      rw [List.cons_append, tokens_blank hb, tokens_blank hb]
      exact ih hcs hr hs
  | token c cs hb ih =>
    cases xs with
    | nil => exact hcs ▸ tokens_blanks_append hbs ys
    | cons x xs =>
      rw [List.cons_append, List.cons.injEq] at hcs
      obtain ⟨rfl, rfl⟩ := hcs
      obtain ⟨hn, stop, hbehind⟩ := hs.behind hb
      rw [tokens_token hb] at hr
      have hne : ∀ text, (munch x (xs ++ ys)).1 ≠ .error text := fun text ht =>
        hr text (ht ▸ List.mem_cons_self)
      have hsame : munch x (xs ++ (bs ++ ys)) = munch x (xs ++ ys) := by
        cases bs with
        | nil => rfl
        | cons b bs =>
          have hblank := isSlotBlank_isBlank (isLexBlank_isSlotBlank (hbs b List.mem_cons_self))
          have hcut := munch_cut hne hn
          rw [← hcut] at hne ⊢
          exact munch_before_blank (by simpa using hblank) hne
      have hdrop : (xs ++ ys).drop (munch x (xs ++ ys)).2 =
          xs.drop (munch x (xs ++ ys)).2 ++ ys := List.drop_append_of_le_length hn
      rw [← hdrop] at hbehind
      rw [List.cons_append, tokens_token hb, tokens_token hb, hsame,
        List.drop_append_of_le_length hn,
        ih hdrop.symm (fun text ht => hr text (List.mem_cons_of_mem _ ht)) hbehind]

namespace State

/-- How many of the tokens can be taken, and the state behind these. -/
def reach (st : State) : List Token → Nat × State
  | [] => (0, st)
  | t :: ts =>
    match st.step t with
    | some st => ((st.reach ts).1 + 1, (st.reach ts).2)
    | none => (0, st)

theorem reach_append {st st' : State} {ts us : List Token} (h : st.steps ts = some st')
    (hstop : ∀ t ∈ us.head?, st'.step t = none) : st.reach (ts ++ us) = (ts.length, st') := by
  induction ts generalizing st with
  | nil =>
    obtain rfl := Option.some.inj h
    cases us with
    | nil => rfl
    | cons u us => simp [reach, hstop u rfl]
  | cons t ts ih =>
    obtain ⟨next, hs, h⟩ := Option.bind_eq_some_iff.1 h
    simp [reach, hs, ih h]

end State

/-- A syntax error is known from the tokens: it stands where no more of them can be taken. -/
theorem parse_error_reach {text : String} {x : SyntaxError} (h : parse text = .error x) :
    let ts := tokens text.toList
    x.position (lex text) = (State.start.reach ts).1 ∧
      x.found = ts[(State.start.reach ts).1]? ∧ x.expected = (State.start.reach ts).2.expected := by
  intro ts
  obtain ⟨st, hsteps, hexpected, hstuck⟩ := parse_error_state h
  generalize x.position (lex text) = k at hsteps hstuck
  have hlength : ts.length = (lex text).length := by simp [ts, tokens_toList]
  have hfound : x.found = ts[k]? ∧ k ≤ ts.length ∧ ∀ t ∈ (ts.drop k).head?, st.step t = none := by
    rw [List.head?_drop]
    rcases hstuck with ⟨l, hl, hstep, -, hfound⟩ | ⟨hk, -, hfound⟩
    · have ht : ts[k]? = some l.token := by simp [ts, tokens_toList, hl]
      have hk := (List.getElem?_eq_some_iff.1 hl).1
      refine ⟨by rw [hfound, ht], by omega, fun t hm => ?_⟩
      rw [ht] at hm
      exact Option.some.inj hm ▸ hstep
    · have ht : ts[k]? = none := List.getElem?_eq_none (by omega)
      rw [ht]
      exact ⟨hfound, by omega, by simp⟩
  obtain ⟨hfound, hk, hstop⟩ := hfound
  have hreach := State.reach_append hsteps hstop
  rw [List.take_append_drop, List.length_take_of_le hk] at hreach
  rw [hreach]
  exact ⟨rfl, hfound, hexpected⟩

theorem parse_of_tokens {text other : String} (h : tokens other.toList = tokens text.toList) :
    (∀ e, parse other = .ok e ↔ parse text = .ok e) ∧
    ∀ x, parse text = .error x → ∃ y, parse other = .error y ∧
      y.position (lex other) = x.position (lex text) ∧ y.found = x.found ∧
      y.expected = x.expected := by
  have hok (e : Expr) : parse other = .ok e ↔ parse text = .ok e := by
    rw [parse_eq_ok_iff, parse_eq_ok_iff, h]
  refine ⟨hok, fun x hx => ?_⟩
  cases hy : parse other with
  | ok e =>
    rw [(hok e).1 hy] at hx
    cases hx
  | error y =>
    obtain ⟨hposition, hfound, hexpected⟩ := parse_error_reach hx
    obtain ⟨hposition', hfound', hexpected'⟩ := parse_error_reach hy
    rw [h] at hposition' hfound' hexpected'
    exact ⟨y, rfl, hposition'.trans hposition.symm, hfound'.trans hfound.symm,
      hexpected'.trans hexpected.symm⟩

/-- The tokens of a text are not empty, stand one behind the other, and leave out nothing but blanks.
Each is the only token of the part that it covers. Where all of them are readable, blanks put between two of
them, or at one of the ends, change neither the tokens nor what they are parsed to. -/
theorem lex_loses_blanks_only (text : String) :
    (∀ l ∈ lex text, l.span.start < l.span.stop ∧ ∃ part : String,
      l.span.Covers text.toList part.toList ∧
        lex part = [⟨l.token, 0, byteLength part.toList⟩]) ∧
    ((lex text).Pairwise fun l m => l.span.stop ≤ m.span.start) ∧
    (∀ before c behind, text.toList = before ++ c :: behind → isLexBlank c = true ∨
      ∃ l ∈ lex text, l.span.start ≤ byteLength before ∧
        byteLength before + c.utf8Size ≤ l.span.stop) ∧
    ∀ xs bs ys, text.toList = xs ++ ys → Seam (lex text) (byteLength xs) →
      Readable (tokens text.toList) → (∀ c ∈ bs, isLexBlank c = true) →
      let spaced := String.ofList (xs ++ bs ++ ys)
      tokens spaced.toList = tokens text.toList ∧
        (∀ e, parse spaced = .ok e ↔ parse text = .ok e) ∧
        ∀ x, parse text = .error x → ∃ y, parse spaced = .error y ∧
          y.position (lex spaced) = x.position (lex text) ∧ y.found = x.found ∧
          y.expected = x.expected := by
  have hordered : Ordered 0 (lex text) := ordered_lexFrom 0 text.toList
  refine ⟨fun l hl => ⟨hordered.solid l hl, ?_⟩, hordered.apart, fun before c behind hcs => ?_,
    fun xs bs ys hcs hseam hr hbs => ?_⟩
  · obtain ⟨part, hpart, hcovers⟩ := alone_of_mem_lexFrom [] hl
    refine ⟨String.ofList part, ?_, ?_⟩
    · rwa [String.toList_ofList]
    · rw [lex, String.toList_ofList, hpart]
  · have h := blank_or_covered hcs 0
    rwa [Nat.zero_add] at h
  · have hstart : Seam (lexFrom 0 (xs ++ ys)) (0 + byteLength xs) := by
      rwa [← hcs, Nat.zero_add]
    intro spaced
    have htokens : tokens spaced.toList = tokens text.toList := by
      rw [hcs] at hr ⊢
      rw [String.toList_ofList, List.append_assoc, tokens_insert_blanks hr hstart hbs]
    exact ⟨htokens, parse_of_tokens htokens⟩

theorem spaced_member_parsed :
    let text := "'é'!==2.x"
    let spaced := "'é'!==2\t\n .x"
    let e : Expr := .binary .strictNotEq (.literal (.string "é"))
      (.member (.literal (.number (numberValue ['2']))) "x")
    Seam (lex text) 8 ∧ tokens spaced.toList = tokens text.toList ∧ parse spaced = .ok e := by
  intro text spaced e
  have hlex : lex text = [⟨.string "é", 0, 4⟩, ⟨.symbol .strictNotEq, 4, 7⟩,
      ⟨.number (numberValue ['2']), 7, 8⟩, ⟨.symbol .dot, 8, 9⟩, ⟨.ident "x", 9, 10⟩] := by
    decide +kernel
  have hseam : Seam (lex text) 8 := by
    rw [hlex]
    simp [Seam]
  have hreadable : Readable (tokens text.toList) := by
    rw [tokens_toList, hlex]
    simp [Readable]
  have hparse : parse text = .ok e := by
    rw [parse, hlex]
    rfl
  obtain ⟨htokens, hok, -⟩ := (lex_loses_blanks_only text).2.2.2 "'é'!==2".toList "\t\n ".toList
    ".x".toList (by decide) hseam hreadable (List.all_eq_true.1 (by decide))
  exact ⟨hseam, htokens, (hok e).2 hparse⟩

end Stencil.Expr
