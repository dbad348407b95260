import Stencil.Proofs.Expr.Completeness
import Stencil.Proofs.Text.Runs
set_option autoImplicit false

/-!
# The tokens of a text

The tokens that are read from a text, wherever it stands. Blanks around an expression make no
difference to them. Main statements: `tokens_append_blanks`, and `parse_trim`, a text without the blanks
at its ends is the same expression.
-/

namespace Stencil.Expr

open Text

theorem toNat_of_isNamePart {c : Char} (h : isNamePart c = true) :
    c.toNat = 36 ∨ (48 ≤ c.toNat ∧ c.toNat ≤ 57) ∨ (65 ≤ c.toNat ∧ c.toNat ≤ 90) ∨
      c.toNat = 95 ∨ (97 ≤ c.toNat ∧ c.toNat ≤ 122) := by
  have h : ((((decide (65 ≤ c.val ∧ c.val ≤ 90) || decide (97 ≤ c.val) && decide (c.val ≤ 122)) ||
      decide (48 ≤ c.val) && decide (c.val ≤ 57)) || decide (c = '_')) || decide (c = '$')) = true :=
    h
  simp only [Bool.or_eq_true, Bool.and_eq_true, decide_eq_true_eq, UInt32.le_iff_toNat_le] at h
  rcases h with (((h | h) | h) | rfl) | rfl
  · exact .inr (.inr (.inl h))
  · exact .inr (.inr (.inr (.inr h)))
  · exact .inr (.inl h)
  · decide
  · decide

theorem isNamePart_of_isNameStart {c : Char} (h : isNameStart c = true) : isNamePart c = true := by
  simp only [isNameStart, isNamePart, Char.isAlphanum, Bool.or_eq_true, decide_eq_true_eq] at h ⊢
  rcases h with (h | h) | h <;> simp [h]

theorem isNamePart_of_isDigit {c : Char} (h : Decimal.isDigit c = true) : isNamePart c = true := by
  have hd : c.isDigit = true := by
    simpa [Decimal.isDigit, Char.isDigit, Char.le_def, UInt32.le_iff_toNat_le] using h
  simp [isNamePart, Char.isAlphanum, hd]

theorem isNamePart_of_isBlank {c : Char} (h : isBlank c = true) : isNamePart c = false := by
  cases hn : isNamePart c with
  | false => rfl
  | true =>
    have hc := toNat_of_isNamePart hn
    simp only [isBlank, Bool.or_eq_true, Bool.and_eq_true, decide_eq_true_eq] at h
    omega

theorem isNameStart_of_isBlank {c : Char} (h : isBlank c = true) : isNameStart c = false := by
  have hp := isNamePart_of_isBlank h
  cases hn : isNameStart c with
  | false => rfl
  | true => simp [isNamePart_of_isNameStart hn] at hp

theorem isDigit_of_isBlank {c : Char} (h : isBlank c = true) : Decimal.isDigit c = false := by
  have hp := isNamePart_of_isBlank h
  cases hn : Decimal.isDigit c with
  | false => rfl
  | true => simp [isNamePart_of_isDigit hn] at hp

theorem isBlank_of_mem_spelling (s : Symbol) : ∀ c ∈ s.spelling.toList, isBlank c = false := by
  have h : s.spelling.toList.all (fun c => !isBlank c) = true := by cases s <;> rfl
  simpa using h

section

variable {ys : List Char}

theorem isPrefixOf_append_blanks (hys : ∀ c ∈ ys.head?, isBlank c = true) {word : List Char}
    (hw : ∀ c ∈ word, isBlank c = false) (xs : List Char) :
    word.isPrefixOf (xs ++ ys) = word.isPrefixOf xs := by
  induction xs generalizing word with
  | nil =>
    cases word with
    | nil => simp
    | cons c word =>
      cases ys with
      | nil => rfl
      | cons y ys =>
        have hne : c ≠ y := by
          rintro rfl
          simpa [hw c List.mem_cons_self] using hys c rfl
        simp [List.isPrefixOf, hne]
  | cons x xs ih =>
    cases word with
    | nil => simp
    | cons c word =>
      have hrest := ih fun d hd => hw d (List.mem_cons_of_mem c hd)
      simp [List.isPrefixOf, hrest]

theorem symbol?_append_blanks (hys : ∀ c ∈ ys.head?, isBlank c = true) (xs : List Char) :
    symbol? (xs ++ ys) = symbol? xs := by
  have hsame (s : Symbol) : s.spelling.toList.isPrefixOf (xs ++ ys) =
      s.spelling.toList.isPrefixOf xs := isPrefixOf_append_blanks hys (isBlank_of_mem_spelling s) xs
  simp only [symbol?, hsame]

theorem numberExtent_append_blanks (hys : ∀ c ∈ ys.head?, isBlank c = true) (xs : List Char) :
    numberExtent (xs ++ ys) = numberExtent xs := by
  have hd : ∀ c ∈ ys.head?, Decimal.isDigit c = false := fun c hc => isDigit_of_isBlank (hys c hc)
  simp only [numberExtent, takeWhile_append_stop hd, dropWhile_append_stop hd]
  cases hx : xs.dropWhile Decimal.isDigit with
  | nil =>
    cases ys with
    | nil => rfl
    | cons y ys =>
      have hne : y ≠ '.' := by
        rintro rfl
        exact absurd (hys '.' rfl) (by decide)
      simp [hne]
  | cons c rest =>
    by_cases hc : c = '.'
    · subst hc
      simp [takeWhile_append_stop hd]
    · simp [hc]

theorem ne_backslash {c : Char} {cs : List Char} (hone : c = '\\' → cs = [] → False)
    (hmore : ∀ d ds, c = '\\' → cs = d :: ds → False) : c ≠ '\\' := by
  rintro rfl
  cases cs with
  | nil => exact hone rfl rfl
  | cons d ds => exact hmore d ds rfl rfl

theorem stringExtent_cons {quote c : Char} (h : c ≠ '\\') (cs : List Char) :
    stringExtent quote (c :: cs) =
      if c = quote then (1, true)
      else ((stringExtent quote cs).1 + 1, (stringExtent quote cs).2) := by
  simp [stringExtent, h]

theorem stringExtent_of_not_mem {quote : Char} {cs : List Char} (h : quote ∉ cs) :
    (stringExtent quote cs).2 = false := by
  fun_induction stringExtent quote cs <;> simp_all

theorem stringExtent_append {quote : Char} (hq : quote ∉ ys) (xs : List Char)
    (hc : (stringExtent quote (xs ++ ys)).2 = true) :
    stringExtent quote (xs ++ ys) = stringExtent quote xs := by
  fun_induction stringExtent quote xs with
  | case1 => simp [stringExtent_of_not_mem hq] at hc
  | case2 =>
    cases ys with
    | nil => rfl
    | cons y ys =>
      have hno := stringExtent_of_not_mem (List.not_mem_of_not_mem_cons hq)
      simp only [List.singleton_append, stringExtent] at hc
      split at hc <;> simp_all
  | case3 cs => simp [stringExtent]
  | case4 d cs hd n closed he ih =>
    simp only [List.cons_append, stringExtent, hd, if_false] at hc ⊢
    rw [ih hc, he]
  | case5 cs hone hmore =>
    have hne := ne_backslash hone hmore
    simp [stringExtent_cons hne]
  | case6 c cs hone hmore hcq n closed he ih =>
    have hne := ne_backslash hone hmore
    simp only [List.cons_append, stringExtent_cons hne, hcq, if_false] at hc ⊢
    rw [ih hc, he]

end

theorem munch_unknown {c : Char} (hn : isNameStart c = false) (hd : Decimal.isDigit c = false)
    (hq : c ≠ '"' ∧ c ≠ '\'') (hs : ∀ s : Symbol, c ∉ s.spelling.toList) (cs : List Char) :
    munch c cs = (.error (String.ofList [c]), 0) := by
  have hnone : symbol? (c :: cs) = none := by
    rw [symbol?, List.find?_eq_none]
    intro s _ hp
    obtain ⟨d, ds, hd⟩ : ∃ d ds, s.spelling.toList = d :: ds := by cases s <;> exact ⟨_, _, rfl⟩
    have hne := hs s
    rw [hd] at hp hne
    simp only [List.isPrefixOf, Bool.and_eq_true, beq_iff_eq] at hp
    exact hne (hp.1 ▸ List.mem_cons_self)
  simp [munch, hn, hd, hq, hnone]

theorem munch_of_isBlank {c : Char} (h : isBlank c = true) (cs : List Char) :
    munch c cs = (.error (String.ofList [c]), 0) := by
  refine munch_unknown (isNameStart_of_isBlank h) (isDigit_of_isBlank h) ⟨?_, ?_⟩ ?_ cs
  · rintro rfl
    exact absurd h (by decide)
  · rintro rfl
    exact absurd h (by decide)
  · intro s hm
    rw [isBlank_of_mem_spelling s c hm] at h
    cases h

theorem munch_tick (cs : List Char) : munch '\x60' cs = (.error "\x60", 0) :=
  munch_unknown (by decide) (by decide) (by decide) (fun s => by cases s <;> decide) cs

def wordToken (word : List Char) : Token :=
  match keyword? word with
  | some k => .keyword k
  | none => .ident (String.ofList word)

theorem munch_word {c : Char} (h : isNameStart c = true) (cs : List Char) :
    munch c cs =
      (wordToken (c :: cs.takeWhile isNamePart), (cs.takeWhile isNamePart).length) := by
  simp only [munch, h, if_true, wordToken]
  cases keyword? (c :: cs.takeWhile isNamePart) <;> rfl

/-- The rules by which a token is taken, with how many of the characters behind the first it takes. -/
inductive Munched (c : Char) (cs : List Char) : Token × Nat → Prop where
  | word : isNameStart c = true →
    Munched c cs (wordToken (c :: cs.takeWhile isNamePart), (cs.takeWhile isNamePart).length)
  | number : isNameStart c = false → Decimal.isDigit c = true →
    Munched c cs (.number (numberValue (c :: cs.take (numberExtent cs))), numberExtent cs)
  | string {n : Nat} : c = '"' ∨ c = '\'' → stringExtent c cs = (n, true) →
    Munched c cs (.string (String.ofList (unescape (cs.take (n - 1)))), n)
  | symbol {s : Symbol} : isNameStart c = false → Decimal.isDigit c = false →
    ¬(c = '"' ∨ c = '\'') → symbol? (c :: cs) = some s →
    Munched c cs (.symbol s, s.spelling.length - 1)
  | error (text : String) (n : Nat) : Munched c cs (.error text, n)

theorem munched_munch (c : Char) (cs : List Char) : Munched c cs (munch c cs) := by
  cases hc : isNameStart c with
  | true => exact munch_word hc cs ▸ .word hc
  | false =>
    unfold munch
    dsimp only
    rw [hc, if_neg (by decide)]
    split
    · next hd => exact .number hc hd
    · next hd =>
      split
      · next hq =>
        simp only [Bool.or_eq_true, decide_eq_true_eq] at hq
        split
        · next n he => exact .string hq he
        · exact .error ..
      · next hq =>
        simp only [Bool.or_eq_true, decide_eq_true_eq] at hq
        split
        · next s hs => exact .symbol hc (Bool.not_eq_true _ ▸ hd) hq hs
        · exact .error ..

/-- A rule that applies is the one by which the token is taken. -/
theorem Munched.eq {c : Char} {cs : List Char} {r : Token × Nat} (h : Munched c cs r)
    (hne : ∀ text, r.1 ≠ .error text) : munch c cs = r := by
  cases h with
  | word hc => exact munch_word hc cs
  | number hc hd => simp [munch, hc, hd]
  | string hq he =>
    have hstart : isNameStart c = false := by obtain rfl | rfl := hq <;> decide
    have hdigit : Decimal.isDigit c = false := by obtain rfl | rfl := hq <;> decide
    simp [munch, hstart, hdigit, hq, he]
  | symbol hc hd hq hs => simp [munch, hc, hd, hq, hs]
  | error text n => exact absurd rfl (hne text)

theorem munch_append_blanks {ys : List Char} (hys : ∀ c ∈ ys, isBlank c = true) (c : Char)
    (xs : List Char) (hne : ∀ text, (munch c (xs ++ ys)).1 ≠ .error text) :
    munch c (xs ++ ys) = munch c xs := by
  have hhead : ∀ c ∈ ys.head?, isBlank c = true := fun c hc => hys c (List.mem_of_mem_head? hc)
  have hword : ∀ c ∈ ys.head?, isNamePart c = false := fun c hc =>
    isNamePart_of_isBlank (hhead c hc)
  have htake {n : Nat} (hn : n ≤ xs.length) : (xs ++ ys).take n = xs.take n :=
    List.take_append_of_le_length hn
  refine (Munched.eq ?_ hne).symm
  have hm := munched_munch c (xs ++ ys)
  generalize munch c (xs ++ ys) = r at hm hne
  cases hm with
  | word hc => exact takeWhile_append_stop hword xs ▸ .word hc
  | number hc hd =>
    rw [numberExtent_append_blanks hhead, htake (numberExtent_le xs)]
    exact .number hc hd
  | string hq he =>
    have hquote : c ∉ ys := by
      intro hm
      have hb := hys c hm
      obtain rfl | rfl := hq <;> exact absurd hb (by decide)
    have hxs := stringExtent_append hquote xs (by rw [he])
    rw [he] at hxs
    have hlength := stringExtent_le c xs
    rw [← hxs] at hlength
    rw [htake (Nat.le_trans (Nat.sub_le _ 1) hlength)]
    exact .string hq hxs.symm
  | symbol hc hd hq hs =>
    rw [← List.cons_append, symbol?_append_blanks hhead] at hs
    exact .symbol hc hd hq hs
  | error text n => exact absurd rfl (hne text)

def tokens (cs : List Char) : List Token := (lexFrom 0 cs).map Lexeme.token

theorem tokens_toList (text : String) : tokens text.toList = (lex text).map Lexeme.token := rfl

/-- A text is empty, begins with a blank or begins with a token. -/
@[elab_as_elim]
theorem lex_induction {motive : List Char → Prop} (nil : motive [])
    (blank : ∀ c cs, isLexBlank c = true → motive cs → motive (c :: cs))
    (token : ∀ c cs, isLexBlank c = false → motive (cs.drop (munch c cs).2) → motive (c :: cs))
    (cs : List Char) : motive cs := by
  induction 0, cs using lexFrom.induct with
  | case1 => exact nil
  | case2 start c cs hb ih => exact blank c cs hb ih
  | case3 start c cs hb t n hm stop ih =>
    rw [Bool.not_eq_true] at hb
    refine token c cs hb ?_
    rwa [hm]

theorem lexFrom_blank {c : Char} (h : isLexBlank c = true) (start : Nat) (cs : List Char) :
    lexFrom start (c :: cs) = lexFrom (start + c.utf8Size) cs := by
  rw [lexFrom, if_pos h]

theorem lexFrom_munch {c : Char} (h : isLexBlank c = false) (start : Nat) (cs : List Char) :
    lexFrom start (c :: cs) =
      ⟨(munch c cs).1, start, start + byteLength (c :: cs.take (munch c cs).2)⟩ ::
        lexFrom (start + byteLength (c :: cs.take (munch c cs).2)) (cs.drop (munch c cs).2) := by
  rw [lexFrom, if_neg (by simp [h])]

theorem lexFrom_token {c : Char} (h : isLexBlank c = false) (start : Nat) (cs : List Char) :
    ∃ stop, lexFrom start (c :: cs) =
      ⟨(munch c cs).1, start, stop⟩ :: lexFrom stop (cs.drop (munch c cs).2) :=
  ⟨_, lexFrom_munch h start cs⟩

theorem map_token_lexFrom (start : Nat) (cs : List Char) :
    (lexFrom start cs).map Lexeme.token = tokens cs := by
  suffices h : ∀ m n, (lexFrom m cs).map Lexeme.token = (lexFrom n cs).map Lexeme.token from h ..
  induction cs using lex_induction with
  | nil => simp [lexFrom]
  | blank c cs hb ih => simpa only [lexFrom_blank hb] using fun m n => ih ..
  | token c cs hb ih =>
    intro m n
    obtain ⟨i, hi⟩ := lexFrom_token hb m cs
    obtain ⟨j, hj⟩ := lexFrom_token hb n cs
    rw [hi, hj, List.map_cons, List.map_cons, ih i j]

@[simp] theorem tokens_nil : tokens [] = [] := by simp [tokens, lexFrom]

theorem tokens_blank {c : Char} (h : isLexBlank c = true) (cs : List Char) :
    tokens (c :: cs) = tokens cs := by
  rw [tokens, lexFrom_blank h, map_token_lexFrom]

theorem tokens_blanks_append {bs : List Char} (h : ∀ c ∈ bs, isLexBlank c = true) (cs : List Char) :
    tokens (bs ++ cs) = tokens cs := by
  induction bs with
  | nil => rfl
  | cons b bs ih =>
    rw [List.cons_append, tokens_blank (h b List.mem_cons_self)]
    exact ih fun c hc => h c (List.mem_cons_of_mem b hc)

theorem tokens_token {c : Char} (h : isLexBlank c = false) (cs : List Char) :
    tokens (c :: cs) = (munch c cs).1 :: tokens (cs.drop (munch c cs).2) := by
  obtain ⟨stop, hs⟩ := lexFrom_token h 0 cs
  rw [tokens, hs, List.map_cons, map_token_lexFrom]

/-- No text of these tokens is unreadable. -/
def Readable (ts : List Token) : Prop := ∀ text, .error text ∉ ts

theorem isLexBlank_of_readable {c : Char} {cs : List Char} (h : Readable (tokens (c :: cs)))
    (hc : isBlank c = true) : isLexBlank c = true := by
  cases hl : isLexBlank c with
  | true => rfl
  | false =>
    rw [tokens_token hl, munch_of_isBlank hc] at h
    exact absurd List.mem_cons_self (h _)

theorem isLexBlank_of_mem_leadingBlanks {cs : List Char} (h : Readable (tokens cs)) :
    ∀ c ∈ leadingBlanks cs, isLexBlank c = true := by
  induction cs with
  | nil => simp [leadingBlanks]
  | cons c cs ih =>
    unfold leadingBlanks
    cases hc : isBlank c with
    | false => simp [hc]
    | true =>
      have hl := isLexBlank_of_readable h hc
      rw [tokens_blank hl] at h
      rw [List.takeWhile_cons_of_pos hc]
      exact List.forall_mem_cons.2 ⟨hl, ih h⟩

theorem tokens_blanks {ys : List Char} (hys : ∀ c ∈ ys, isBlank c = true)
    (h : Readable (tokens ys)) : tokens ys = [] := by
  induction ys with
  | nil => exact tokens_nil
  | cons y ys ih =>
    have hl := isLexBlank_of_readable h (hys y List.mem_cons_self)
    rw [tokens_blank hl] at h ⊢
    exact ih (fun c hc => hys c (List.mem_cons_of_mem y hc)) h

theorem tokens_trimStart {cs : List Char} (h : Readable (tokens cs)) :
    tokens (trimStart cs) = tokens cs := by
  induction cs with
  | nil => rfl
  | cons c cs ih =>
    unfold trimStart
    cases hc : isBlank c with
    | false => rw [List.dropWhile_cons_of_neg (by simp [hc])]
    | true =>
      have hl := isLexBlank_of_readable h hc
      rw [tokens_blank hl] at h ⊢
      rw [List.dropWhile_cons_of_pos hc]
      exact ih h

theorem tokens_append_blanks {ys : List Char} (hys : ∀ c ∈ ys, isBlank c = true) {xs : List Char}
    (h : Readable (tokens (xs ++ ys))) : tokens (xs ++ ys) = tokens xs := by
  induction xs using lex_induction with
  | nil => rw [List.nil_append] at h ⊢; rw [tokens_blanks hys h, tokens_nil]
  | blank c xs hb ih =>
    rw [List.cons_append, tokens_blank hb] at h ⊢
    rw [tokens_blank hb, ih h]
  | token c xs hb ih =>
    rw [List.cons_append, tokens_token hb] at h ⊢
    have hm : munch c (xs ++ ys) = munch c xs := munch_append_blanks hys c xs fun text ht =>
      h text (ht ▸ List.mem_cons_self)
    rw [hm, List.drop_append_of_le_length (munch_le c xs)] at h ⊢
    rw [tokens_token hb, ih fun text ht => h text (List.mem_cons_of_mem _ ht)]

theorem tokens_trim {cs : List Char} (h : Readable (tokens cs)) : tokens (trim cs) = tokens cs := by
  have hs := tokens_trimStart h
  rw [← hs] at h ⊢
  have he := trimEnd_append_trailingBlanks (trimStart cs)
  have hblank : ∀ c ∈ trailingBlanks (trimStart cs), isBlank c = true := by
    intro c hc
    rw [trailingBlanks, List.mem_reverse] at hc
    exact List.mem_takeWhile_imp hc
  rw [trim]
  conv => rhs; rw [← he]
  rw [← he] at h
  exact (tokens_append_blanks hblank h).symm

/-- A text is an expression if and only if the grammar derives its tokens. -/
theorem parse_eq_ok_iff (text : String) (x : Expr) :
    parse text = .ok x ↔ Derives (.of .expr x) (tokens text.toList) := by
  constructor
  · exact derives_of_parseLexemes
  · exact parseLexemes_of_derives

theorem readable_of_parse {text : String} {x : Expr} (h : parse text = .ok x) :
    Readable (tokens text.toList) :=
  ((parse_eq_ok_iff text x).1 h).not_mem.2

theorem parse_trim {text : String} {x : Expr} (h : parse text = .ok x) :
    parse (String.ofList (trim text.toList)) = .ok x := by
  have hd := (parse_eq_ok_iff text x).1 h
  rw [parse_eq_ok_iff, String.toList_ofList, tokens_trim (readable_of_parse h)]
  exact hd

theorem isLexBlank_of_isNameStart {c : Char} (h : isNameStart c = true) : isLexBlank c = false := by
  cases hb : isLexBlank c with
  | false => rfl
  | true =>
    rw [isNameStart_of_isBlank (isSlotBlank_isBlank (isLexBlank_isSlotBlank hb))] at h
    cases h

theorem lexFrom_word {c : Char} {cs tail : List Char} (hc : isNameStart c = true)
    (hcs : ∀ d ∈ cs, isNamePart d = true) (ht : ∀ d ∈ tail.head?, isNamePart d = false)
    (start : Nat) :
    lexFrom start (c :: cs ++ tail) =
      ⟨wordToken (c :: cs), start, start + byteLength (c :: cs)⟩ ::
        lexFrom (start + byteLength (c :: cs)) tail := by
  rw [List.cons_append, lexFrom, if_neg (by simp [isLexBlank_of_isNameStart hc]), munch_word hc,
    takeWhile_exact hcs ht]
  dsimp only
  rw [List.take_left, List.drop_left]

theorem tokens_word {c : Char} (hc : isNameStart c = true) (cs : List Char) :
    tokens (c :: cs) =
      wordToken (c :: cs.takeWhile isNamePart) :: tokens (cs.dropWhile isNamePart) := by
  have hdrop : cs.drop (cs.takeWhile isNamePart).length = cs.dropWhile isNamePart := by
    conv => lhs; arg 2; rw [← List.takeWhile_append_dropWhile (p := isNamePart) (l := cs)]
    rw [List.drop_left]
  rw [tokens_token (isLexBlank_of_isNameStart hc), munch_word hc, hdrop]

end Stencil.Expr
