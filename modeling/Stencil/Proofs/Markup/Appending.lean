import Stencil.Proofs.Markup.Cuts
import Stencil.Proofs.Markup.Places
import Stencil.Proofs.Markup.Stability
set_option autoImplicit false

/-!
# Sources one behind the other

What is read of a source stays as it is if more text follows, unless the source breaks off within an
opener or an escape. Only where the texts meet there is one literal instead of two. Main statements:
`cut_seam`, `Cut.append` and `pieces_append`.
-/

namespace Stencil.Markup

open Text

/-- The text does not break off within an opener or an escape. -/
def EndsPlain (cs : List Char) : Prop := ∀ c ∈ cs.getLast?, c ≠ '$' ∧ c ≠ '\\'

theorem EndsPlain.behind {xs cs : List Char} (h : EndsPlain (xs ++ cs)) : EndsPlain cs := by
  intro c hc
  refine h c ?_
  rw [List.getLast?_append, hc]
  rfl

theorem splitOpener_seam {cs ys : List Char} (h : splitOpener cs = none)
    (he : cs.getLast? = some '$' → ys.head? ≠ some '\x7b') :
    splitOpener (cs ++ ys) = (splitOpener ys).map fun p => (cs ++ p.1, p.2) := by
  induction cs with
  | nil => simp
  | cons c cs ih =>
    unfold splitOpener at h
    split at h
    · cases h
    · next hc =>
      have hne : ¬(c = '$' && (cs ++ ys).head? = some '\x7b') = true := by
        cases cs with
        | nil =>
          simp only [Bool.and_eq_true, decide_eq_true_eq, not_and]
          intro hd
          exact he (by rw [hd]; rfl)
        | cons d cs => exact hc
      have hrest : cs.getLast? = some '$' → ys.head? ≠ some '\x7b' := fun hlast =>
        he (by rw [List.getLast?_cons, hlast]; rfl)
      rw [List.cons_append, splitOpener, if_neg hne, ih (Option.map_eq_none_iff.1 h) hrest,
        Option.map_map]
      rfl

theorem splitOpener_append_none {cs : List Char} (h : splitOpener cs = none) (he : EndsPlain cs)
    (ys : List Char) :
    splitOpener (cs ++ ys) = (splitOpener ys).map fun p => (cs ++ p.1, p.2) :=
  splitOpener_seam h fun hlast => absurd rfl (he '$' hlast).1

theorem backslashes_append {cs : List Char} (he : EndsPlain cs) (ys : List Char) :
    backslashes (cs ++ ys) = backslashes ys := by
  have hstop : ∀ c ∈ cs.reverse.head?, (decide (c = '\\')) = false := by
    intro c hc
    rw [List.head?_reverse] at hc
    simp [(he c hc).2]
  rw [backslashes, backslashes, List.reverse_append, takeWhile_append_stop hstop]

theorem ne_nil_of_backslashes {cs : List Char} (h : backslashes cs ≠ 0) : cs ≠ [] := by
  rintro rfl
  exact h rfl

theorem kept_append {cs : List Char} (he : EndsPlain cs) (ys : List Char) :
    kept (cs ++ ys) = cs ++ kept ys := by
  unfold kept
  rw [backslashes_append he]
  split
  · rfl
  · next hb => rw [List.dropLast_append_of_ne_nil (ne_nil_of_backslashes hb)]

/-- Two rows one behind the other. A literal that ends the first and one that begins the second may
have become one. -/
inductive Joins {α : Type} (literal : String → α) : List α → List α → List α → Prop where
  | apart (xs ys : List α) : Joins literal xs ys (xs ++ ys)
  | merged (xs ys : List α) (a b : String) :
    Joins literal (xs ++ [literal a]) (literal b :: ys) (xs ++ literal (a ++ b) :: ys)

theorem Joins.append_left {α : Type} {literal : String → α} {xs ys zs : List α}
    (h : Joins literal xs ys zs) (us : List α) : Joins literal (us ++ xs) ys (us ++ zs) := by
  cases h with
  | apart => rw [← List.append_assoc]; exact .apart ..
  | merged xs ys a b =>
    rw [← List.append_assoc, ← List.append_assoc]
    exact .merged ..

theorem joins_nil {α : Type} {literal : String → α} {ys zs : List α}
    (h : Joins literal [] ys zs) : zs = ys := by
  generalize hx : ([] : List α) = xs at h
  cases h with
  | apart => rw [← hx]; rfl
  | merged => simp at hx

def literalTokens (text : List Char) : List Token :=
  if text = [] then [] else [.literal (String.ofList text)]

theorem map_token_literalPiece (text : List Char) (span : Span) :
    (literalPiece text span).map Piece.token = literalTokens text := by
  unfold literalPiece literalTokens
  split <;> rfl

theorem map_shift_literalTokens (n : Nat) (text : List Char) :
    (literalTokens text).map (Token.shift n) = literalTokens text := by
  unfold literalTokens
  split <;> rfl

theorem joins_literalTokens (pre text : List Char) (ts : List Token) :
    Joins .literal (literalTokens pre) (literalTokens text ++ ts)
      (literalTokens (pre ++ text) ++ ts) := by
  cases pre with
  | nil => exact .apart ..
  | cons c pre =>
    cases text with
    | nil =>
      rw [List.append_nil]
      exact .apart ..
    | cons d text =>
      have h : Joins Token.literal _ _ _ :=
        .merged [] ts (String.ofList (c :: pre)) (String.ofList (d :: text))
      rw [← String.ofList_append] at h
      exact h

/-- What text put in front of a source changes: the places, and the literal at the front. -/
theorem Cut.moved {begin pos : Nat} {text cs : List Char} {ps : List Piece}
    (h : Cut begin pos text cs ps) (b n : Nat) (pre : List Char) :
    ∃ qs, Cut b (pos + n) (pre ++ text) cs qs ∧
      Joins .literal (literalTokens pre) ((ps.map Piece.token).map (Token.shift n))
        (qs.map Piece.token) := by
  induction h generalizing b pre with
  | text hs =>
    refine ⟨_, .text hs, ?_⟩
    rw [map_token_literalPiece, map_token_literalPiece, map_shift_literalTokens, List.append_assoc]
    simpa using joins_literalTokens pre _ []
  | @escaped begin pos text cs before behind ps hs hb _ ih =>
    obtain ⟨qs, hq, hj⟩ := ih b pre
    refine ⟨qs, .escaped hs hb ?_, hj⟩
    simpa [Nat.add_right_comm] using hq
  | @slot begin pos text cs before behind ps s t hs hb hr ht _ ih =>
    obtain ⟨qs, hq, hj⟩ := ih (pos + n + byteLength before + s.length) []
    have hqs := joins_nil hj
    have ht' := Slot.token_shift ht n
    have hpos : pos + byteLength before + n = pos + n + byteLength before :=
      Nat.add_right_comm pos (byteLength before) n
    rw [hpos] at ht'
    rw [Nat.add_right_comm _ s.length, hpos, List.append_nil] at hq
    refine ⟨_, .slot hs hb hr ht' hq, ?_⟩
    simp only [List.map_append, List.map_cons, map_token_literalPiece, map_shift_literalTokens,
      List.append_assoc, hqs]
    exact joins_literalTokens pre _ _

theorem cut_seam {begin pos : Nat} {text cs ys : List Char} {ps : List Piece}
    (hs : splitOpener cs = none) (he : EndsPlain cs)
    (h : Cut begin (pos + byteLength cs) (text ++ cs) ys ps) : Cut begin pos text (cs ++ ys) ps := by
  have happ := splitOpener_append_none hs he ys
  cases h with
  | text hn =>
    rw [hn] at happ
    have hcut : Cut begin pos text (cs ++ ys) _ := .text happ
    rw [byteLength_append, ← Nat.add_assoc, ← List.append_assoc] at hcut
    exact hcut
  | escaped hn hb hq =>
    rw [hn] at happ
    refine .escaped happ (by rwa [backslashes_append he]) ?_
    rw [byteLength_append, List.dropLast_append_of_ne_nil
      (ne_nil_of_backslashes (hb.trans_ne Nat.one_ne_zero))]
    simpa [Nat.add_assoc] using hq
  | slot hn hb hr ht hq =>
    rw [hn] at happ
    have hpos (before : List Char) : pos + byteLength (cs ++ before) =
        pos + byteLength cs + byteLength before := by rw [byteLength_append, Nat.add_assoc]
    have hcut : Cut begin pos text (cs ++ ys) _ := .slot happ (by rwa [backslashes_append he]) hr
      (by rwa [hpos]) (by rwa [hpos])
    rw [kept_append he, hpos, ← List.append_assoc] at hcut
    exact hcut

theorem Cut.append {begin pos : Nat} {text cs ys : List Char} {ps qs : List Piece}
    (h : Cut begin pos text cs ps) (he : EndsPlain cs) (hy : Cut 0 0 [] ys qs) :
    ∃ rs, Cut begin pos text (cs ++ ys) rs ∧
      Joins .literal (ps.map Piece.token)
        ((qs.map Piece.token).map (Token.shift (pos + byteLength cs))) (rs.map Piece.token) := by
  induction h with
  | @text begin pos text cs hs =>
    obtain ⟨rs, hr, hj⟩ := hy.moved begin (pos + byteLength cs) (text ++ cs)
    rw [Nat.zero_add, List.append_nil] at hr
    rw [map_token_literalPiece]
    exact ⟨rs, cut_seam hs he hr, hj⟩
  | @escaped begin pos text cs before behind ps hs hb _ ih =>
    have hcs := splitOpener_append hs
    rw [← hcs] at he
    obtain ⟨rs, hr, hj⟩ := ih he.behind
    refine ⟨rs, .escaped (splitOpener_append_some hs ys) hb hr, ?_⟩
    rwa [← hcs, byteLength_append, byteLength_append, ← Nat.add_assoc, ← Nat.add_assoc]
  | @slot begin pos text cs before behind ps s t hs hb hr ht _ ih =>
    have hcs := splitOpener_append hs
    have hbehind := Slot.read_append hr
    rw [← hcs, ← hbehind, ← List.append_assoc] at he
    obtain ⟨rs, hrs, hj⟩ := ih he.behind
    refine ⟨_, .slot (splitOpener_append_some hs ys) hb (Slot.read_append_right hr ys)
      ((Slot.token_append s ys _).trans ht) hrs, ?_⟩
    have hpos : pos + byteLength cs = pos + byteLength before + s.length + byteLength s.rest := by
      rw [← hcs, ← hbehind, Slot.length]
      simp only [byteLength_append]
      omega
    simp only [List.map_append, List.map_cons]
    rw [hpos, List.append_cons _ t (ps.map _), List.append_cons _ t (rs.map _)]
    exact hj.append_left _

/-- The pieces of two sources that can both be read, one behind the other. -/
theorem pieces_append {s₁ s₂ : String} {ps qs : List Piece} (h₁ : pieces s₁ = .ok ps)
    (h₂ : pieces s₂ = .ok qs) (he : EndsPlain s₁.toList) :
    ∃ rs, pieces (s₁ ++ s₂) = .ok rs ∧
      Joins .literal (ps.map Piece.token)
        ((qs.map Piece.token).map (Token.shift (byteLength s₁.toList))) (rs.map Piece.token) := by
  obtain ⟨rs, hr, hj⟩ := (cut_iff.1 h₁).append he (cut_iff.1 h₂)
  rw [Nat.zero_add] at hj
  refine ⟨rs, ?_, hj⟩
  rw [pieces, String.toList_append]
  exact cut_iff.2 hr

end Stencil.Markup
