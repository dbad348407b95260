import Stencil.Proofs.Expr.Tokens
set_option autoImplicit false

namespace Stencil.Expr

open Text

theorem take_length_takeWhile (p : Char → Bool) (cs : List Char) :
    cs.take (cs.takeWhile p).length = cs.takeWhile p :=
  (List.prefix_iff_eq_take.1 (List.takeWhile_prefix p)).symm

theorem take_numberExtent (cs : List Char) :
    cs.take (numberExtent cs) = cs.takeWhile Decimal.isDigit ∨
      ∃ rest : List Char, rest.takeWhile Decimal.isDigit ≠ [] ∧ cs.take (numberExtent cs) =
        cs.takeWhile Decimal.isDigit ++ '.' :: rest.takeWhile Decimal.isDigit := by
  unfold numberExtent
  dsimp only
  split
  · next rest hr =>
    split
    · exact .inl (take_length_takeWhile ..)
    · next hne =>
      have hcs := List.takeWhile_append_dropWhile (p := Decimal.isDigit) (l := cs)
      rw [hr] at hcs
      generalize cs.takeWhile Decimal.isDigit = whole at hcs ⊢
      subst hcs
      refine .inr ⟨rest, hne, ?_⟩
      rw [Nat.add_assoc, List.take_length_add_append, Nat.add_comm 1, List.take_succ_cons,
        take_length_takeWhile]
  · exact .inl (take_length_takeWhile ..)

theorem numberExtent_digits {ds : List Char} (h : ∀ d ∈ ds, Decimal.isDigit d = true) :
    numberExtent ds = ds.length := by
  simp [numberExtent, List.takeWhile_eq_self_iff.2 h, List.dropWhile_eq_nil_iff.2 h]

theorem numberExtent_fraction {ds es : List Char} (hd : ∀ d ∈ ds, Decimal.isDigit d = true)
    (he : ∀ e ∈ es, Decimal.isDigit e = true) (hne : es ≠ []) :
    numberExtent (ds ++ '.' :: es) = (ds ++ '.' :: es).length := by
  have hpoint : ∀ c ∈ ('.' :: es).head?, Decimal.isDigit c = false := by
    rintro c ⟨⟩
    decide
  simp only [numberExtent, takeWhile_exact hd hpoint, dropWhile_exact hd hpoint,
    List.takeWhile_eq_self_iff.2 he, if_neg hne, List.length_append, List.length_cons]
  omega

theorem numberExtent_take (cs : List Char) :
    numberExtent (cs.take (numberExtent cs)) = numberExtent cs := by
  have hdigit (ds : List Char) : ∀ d ∈ ds.takeWhile Decimal.isDigit, Decimal.isDigit d = true :=
    fun _ => List.mem_takeWhile_imp
  have hlength : (cs.take (numberExtent cs)).length = numberExtent cs :=
    List.length_take_of_le (numberExtent_le cs)
  obtain ht | ⟨rest, hne, ht⟩ := take_numberExtent cs
  · rw [ht] at hlength ⊢
    rw [numberExtent_digits (hdigit cs), hlength]
  · rw [ht] at hlength ⊢
    rw [numberExtent_fraction (hdigit cs) (hdigit rest) hne, hlength]

theorem stringExtent_take (quote : Char) (cs : List Char) :
    stringExtent quote (cs.take (stringExtent quote cs).1) = stringExtent quote cs := by
  fun_induction stringExtent quote cs with
  | case1 => rfl
  | case2 => rfl
  | case3 cs => rfl
  | case4 d cs hd n closed he ih =>
    rw [he] at ih
    simp only [List.take_succ_cons, stringExtent, if_neg hd, ih]
  | case5 cs hone hmore =>
    rw [List.take_succ_cons, stringExtent_cons (ne_backslash hone hmore), if_pos rfl]
  | case6 c cs hone hmore hcq n closed he ih =>
    rw [he] at ih
    rw [List.take_succ_cons, stringExtent_cons (ne_backslash hone hmore), if_neg hcq, ih]

theorem take_of_symbol? {c : Char} {cs : List Char} {s : Symbol} (h : symbol? (c :: cs) = some s) :
    c :: cs.take (s.spelling.length - 1) = s.spelling.toList := by
  have hf := List.find?_some h
  have hp := List.isPrefixOf_iff_prefix.1 hf
  have hpos : s.spelling.length = s.spelling.length - 1 + 1 := by cases s <;> rfl
  rw [List.prefix_iff_eq_take, String.length_toList, hpos, List.take_succ_cons] at hp
  exact hp.symm

theorem symbol?_spelling (s : Symbol) : symbol? s.spelling.toList = some s := by
  cases s <;> decide

theorem symbol?_eq_none_of_prefix {cs ds : List Char} (hp : ds <+: cs) (h : symbol? cs = none) :
    symbol? ds = none := by
  rw [symbol?, List.find?_eq_none] at h ⊢
  intro s hs hd
  have hpre := (List.isPrefixOf_iff_prefix.1 hd).trans hp
  exact h s hs (List.isPrefixOf_iff_prefix.2 hpre)

/-- A token is taken from its own text as it is from a longer one. -/
theorem munch_take (c : Char) (cs : List Char) : munch c (cs.take (munch c cs).2) = munch c cs := by
  cases hn : isNameStart c with
  | true =>
    rw [munch_word hn cs, munch_word hn, take_length_takeWhile, List.takeWhile_idem]
  | false =>
    unfold munch
    dsimp only
    simp only [hn, Bool.false_eq_true, if_false]
    cases Decimal.isDigit c with
    | true => simp only [if_true, numberExtent_take, List.take_take, Nat.min_self]
    | false =>
      simp only [Bool.false_eq_true, if_false]
      split
      · have ht := stringExtent_take c cs
        generalize stringExtent c cs = extent at ht ⊢
        obtain ⟨n, closed⟩ := extent
        cases closed with
        | true => simp only [ht, List.take_take, Nat.min_eq_left (Nat.sub_le n 1)]
        | false => simp only [ht, List.take_take, Nat.min_self]
      · cases hs : symbol? (c :: cs) with
        | some s => simp only [take_of_symbol? hs, symbol?_spelling]
        | none =>
          have hone : symbol? [c] = none :=
            symbol?_eq_none_of_prefix (List.cons_prefix_cons.2 ⟨rfl, List.nil_prefix⟩) hs
          simp only [List.take_zero, hone]

section

variable {xs ys : List Char}

def fractionExtent : List Char → Nat
  | '.' :: cs =>
    if cs.takeWhile Decimal.isDigit = [] then 0 else (cs.takeWhile Decimal.isDigit).length + 1
  | _ => 0

theorem numberExtent_eq (cs : List Char) :
    numberExtent cs = (cs.takeWhile Decimal.isDigit).length +
      fractionExtent (cs.dropWhile Decimal.isDigit) := by
  unfold numberExtent
  dsimp only
  split
  · next rest hr =>
    rw [hr, fractionExtent]
    split <;> omega
  · next hpoint =>
    cases hr : cs.dropWhile Decimal.isDigit with
    | nil => rfl
    | cons c rest =>
      have hne : c ≠ '.' := by
        intro hc
        exact hpoint rest (hc ▸ hr)
      simp [fractionExtent, hne]

theorem fractionExtent_cut (h : fractionExtent (xs ++ ys) ≤ xs.length) :
    fractionExtent xs = fractionExtent (xs ++ ys) := by
  cases xs with
  | nil => exact (Nat.le_zero.1 h).symm
  | cons c rest =>
    by_cases hc : c = '.'
    · subst hc
      simp only [List.cons_append, fractionExtent, List.length_cons] at h ⊢
      have hdigits : ((rest ++ ys).takeWhile Decimal.isDigit).length ≤ rest.length := by
        split at h
        · next hn => simp [hn]
        · omega
      rw [takeWhile_cut hdigits]
    · simp [fractionExtent, hc]

theorem numberExtent_cut (h : numberExtent (xs ++ ys) ≤ xs.length) :
    numberExtent xs = numberExtent (xs ++ ys) := by
  rw [numberExtent_eq] at h
  have hwhole : xs.takeWhile Decimal.isDigit = (xs ++ ys).takeWhile Decimal.isDigit :=
    takeWhile_cut (by omega)
  have hlength := congrArg List.length
    (List.takeWhile_append_dropWhile (p := Decimal.isDigit) (l := xs))
  rw [List.length_append] at hlength
  rw [numberExtent_eq, numberExtent_eq (xs ++ ys), ← hwhole]
  rw [← hwhole] at h
  rw [dropWhile_append hwhole.symm] at h ⊢
  have hfraction : fractionExtent (xs.dropWhile Decimal.isDigit) =
      fractionExtent (xs.dropWhile Decimal.isDigit ++ ys) := fractionExtent_cut (by omega)
  rw [hfraction]

theorem stringExtent_append_right {quote : Char} (h : (stringExtent quote xs).2 = true)
    (ys : List Char) : stringExtent quote (xs ++ ys) = stringExtent quote xs := by
  fun_induction stringExtent quote xs with
  | case1 => cases h
  | case2 => cases h
  | case3 cs => cases h
  | case4 d cs hd n closed he ih =>
    rw [he] at ih
    simp only [List.cons_append, stringExtent, hd, if_false, ih h]
  | case5 cs hone hmore =>
    rw [List.cons_append, stringExtent_cons (ne_backslash hone hmore), if_pos rfl]
  | case6 c cs hone hmore hcq n closed he ih =>
    rw [he] at ih
    rw [List.cons_append, stringExtent_cons (ne_backslash hone hmore), if_neg hcq, ih h]

theorem stringExtent_cut {quote : Char} (hc : (stringExtent quote (xs ++ ys)).2 = true)
    (h : (stringExtent quote (xs ++ ys)).1 ≤ xs.length) :
    stringExtent quote xs = stringExtent quote (xs ++ ys) := by
  have ht := stringExtent_take quote (xs ++ ys)
  rw [List.take_append_of_le_length h] at ht
  generalize (stringExtent quote (xs ++ ys)).1 = n at ht
  rw [← ht] at hc ⊢
  have happ := stringExtent_append_right hc (xs.drop n)
  rwa [List.take_append_drop] at happ

theorem symbol?_cut {s : Symbol} (hs : symbol? (xs ++ ys) = some s)
    (h : s.spelling.length ≤ xs.length) : symbol? xs = some s := by
  rw [symbol?, List.find?_eq_some_iff_append] at hs ⊢
  obtain ⟨hp, before, after, hall, hno⟩ := hs
  rw [List.isPrefixOf_iff_prefix] at hp
  refine ⟨List.isPrefixOf_iff_prefix.2 ?_, before, after, hall, fun t ht => ?_⟩
  · exact List.prefix_of_prefix_length_le hp (List.prefix_append xs ys) (by rwa [String.length_toList])
  · have hn := hno t ht
    rw [Bool.not_eq_true', ← Bool.not_eq_true, List.isPrefixOf_iff_prefix] at hn ⊢
    exact fun ht => hn (ht.trans (List.prefix_append xs ys))

/-- What stands behind a text makes no difference to a token that ends within it. -/
theorem munch_cut {c : Char} (hne : ∀ text, (munch c (xs ++ ys)).1 ≠ .error text)
    (h : (munch c (xs ++ ys)).2 ≤ xs.length) : munch c xs = munch c (xs ++ ys) := by
  have htake {n : Nat} (hn : n ≤ xs.length) : (xs ++ ys).take n = xs.take n :=
    List.take_append_of_le_length hn
  refine Munched.eq ?_ hne
  have hm := munched_munch c (xs ++ ys)
  generalize munch c (xs ++ ys) = r at hm hne h
  cases hm with
  | word hc => exact takeWhile_cut h ▸ .word hc
  | number hc hd =>
    rw [htake h, ← numberExtent_cut h]
    exact .number hc hd
  | string hq he =>
    have hxs := stringExtent_cut (by rw [he]) (by rwa [he])
    rw [he] at hxs
    rw [htake (Nat.le_trans (Nat.sub_le _ 1) h)]
    exact .string hq hxs
  | @symbol s hc hd hq hs =>
    have hlength : s.spelling.length ≤ (c :: xs).length := by
      rw [List.length_cons]
      dsimp only at h
      omega
    exact .symbol hc hd hq (symbol?_cut hs hlength)
  | error text n => exact absurd rfl (hne text)

theorem munch_before_blank {c : Char} (hys : ∀ d ∈ ys.head?, isBlank d = true)
    (hne : ∀ text, (munch c xs).1 ≠ .error text) : munch c (xs ++ ys) = munch c xs := by
  have hname : ∀ d ∈ ys.head?, isNamePart d = false := fun d hd => isNamePart_of_isBlank (hys d hd)
  have htake {n : Nat} (hn : n ≤ xs.length) : (xs ++ ys).take n = xs.take n :=
    List.take_append_of_le_length hn
  refine Munched.eq ?_ hne
  have hm := munched_munch c xs
  generalize munch c xs = r at hm hne
  cases hm with
  | word hc => exact takeWhile_append_stop hname xs ▸ .word hc
  | number hc hd =>
    rw [← htake (numberExtent_le xs), ← numberExtent_append_blanks hys]
    exact .number hc hd
  | string hq he =>
    have hlength := stringExtent_le c xs
    rw [he] at hlength
    rw [← htake (Nat.le_trans (Nat.sub_le _ 1) hlength)]
    exact .string hq (by rw [stringExtent_append_right (by rw [he]), he])
  | symbol hc hd hq hs =>
    rw [← symbol?_append_blanks hys, List.cons_append] at hs
    exact .symbol hc hd hq hs
  | error text n => exact absurd rfl (hne text)

end

theorem lexFrom_alone {c : Char} (h : isLexBlank c = false) (start : Nat) (cs : List Char) :
    lexFrom start (c :: cs.take (munch c cs).2) =
      [⟨(munch c cs).1, start, start + byteLength (c :: cs.take (munch c cs).2)⟩] := by
  have hlength : (cs.take (munch c cs).2).length ≤ (munch c cs).2 := List.length_take_le _ _
  rw [lexFrom_munch h, munch_take, List.take_of_length_le hlength, List.drop_eq_nil_of_le hlength]
  simp [lexFrom]

end Stencil.Expr
