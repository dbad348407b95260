import Stencil.Markup.Source
import Stencil.Proofs.Text.Boundaries
set_option autoImplicit false

/-!
# Slots at fault

Where the pieces of a source cannot be read, one of its slots is at fault, and the error points at it:
its span begins with the opener. It ends between characters, but for one error: where another character
stands in place of the closing brace, the span ends behind the first byte of that character. Main
statement: `exists_span_of_pieces_error`.
-/

namespace Stencil

open Text Markup

namespace Span

def Opens (s : Span) (source : List Char) : Prop := ∃ text, s.Covers source text ∧ opener <+: text

/-- The text of the span begins with an opener and ends behind the first byte of a longer character. -/
def Splits (s : Span) (source : List Char) : Prop :=
  ∃ before text c behind, source = before ++ text ++ c :: behind ∧
    s = ⟨byteLength before, byteLength before + byteLength text + 1⟩ ∧ opener <+: text ∧
    1 < c.utf8Size

variable {s : Span} {source : List Char}

theorem Opens.bounds (h : s.Opens source) : s.start < s.stop ∧ s.stop ≤ byteLength source := by
  obtain ⟨text, ⟨before, behind, rfl, rfl⟩, hopen⟩ := h
  obtain ⟨text, rfl⟩ := hopen
  have hopener : 0 < byteLength opener := by decide
  simp only [byteLength_append]
  omega

theorem Splits.bounds (h : s.Splits source) : s.start < s.stop ∧ s.stop ≤ byteLength source := by
  obtain ⟨before, text, c, behind, rfl, rfl, -, hc⟩ := h
  simp only [byteLength_append, byteLength_cons]
  omega

theorem Splits.not_boundary (h : s.Splits source) : ¬ Boundary source s.stop := by
  obtain ⟨before, text, c, behind, rfl, rfl, -, hc⟩ := h
  have hinside := not_boundary_inside (before ++ text) behind Nat.one_pos hc
  rwa [byteLength_append] at hinside

theorem opens_or_splits (before behind : List Char) (c : Char) {text : List Char}
    (hopen : opener <+: text) :
    let s : Span := ⟨byteLength before, byteLength before + byteLength text + 1⟩
    s.Opens (before ++ text ++ c :: behind) ∨ s.Splits (before ++ text ++ c :: behind) := by
  intro s
  by_cases hc : c.utf8Size = 1
  · refine .inl ⟨text ++ [c], ⟨before, behind, by simp, ?_⟩, hopen.trans (List.prefix_append _ _)⟩
    simp only [s, byteLength_append, byteLength_cons, byteLength_nil, hc]
    rfl
  · have := c.utf8Size_pos
    exact .inr ⟨before, text, c, behind, rfl, rfl, hopen, by omega⟩

end Span

namespace Markup

/-- How far a text is read before the slot at its front turns out to be at fault. -/
def SlotFault.Within (cs : List Char) : SlotFault → Prop
  | .unknownDirective _ n => Boundary cs n
  | .unterminated => True
  | .expectedClose n => ∃ before c behind, cs = before ++ c :: behind ∧ n = byteLength before

namespace Slot

variable {cs : List Char} {fault : SlotFault}

theorem within_of_marker (h : marker cs = .error fault) : fault.Within cs := by
  have hcs := List.takeWhile_append_dropWhile (p := isSlotBlank) (l := cs)
  unfold marker at h
  dsimp only at h
  split at h
  · next more hm =>
    have hmore := List.takeWhile_append_dropWhile (p := Expr.isNamePart) (l := more)
    unfold underscoreMarker at h
    dsimp only at h
    split at h
    · cases h
    · split at h
      · cases h
      · split at h
        · cases h
          refine ⟨_, more.dropWhile Expr.isNamePart, ?_, rfl⟩
          rw [List.append_assoc, List.cons_append, hmore, ← hm, hcs]
        · cases h
  · cases h

theorem within_of_readTicked {d : Directive} {lead more : List Char}
    (h : readTicked d lead more = .error fault) : fault.Within (lead ++ more) := by
  unfold readTicked at h
  have hmore := List.takeWhile_append_dropWhile (p := (· ≠ '\x60')) (l := more)
  dsimp only at h
  split at h
  · cases h
    trivial
  · next tick behind ht =>
    have hbehind := List.takeWhile_append_dropWhile (p := isSlotBlank) (l := behind)
    split at h
    · cases h
      trivial
    · next c rest hb =>
      split at h
      · cases h
      · cases h
        refine ⟨_, c, rest, ?_, rfl⟩
        rw [List.append_assoc, List.cons_append, ← hb, hbehind, List.append_assoc, ← ht, hmore]

theorem within_of_readBare {d : Directive} {lead body : List Char}
    (h : readBare d lead body = .error fault) : fault = .unterminated := by
  unfold readBare at h
  split at h <;> cases h
  rfl

theorem within_of_read (h : Slot.read cs = .error fault) : fault.Within cs := by
  unfold Slot.read at h
  split at h
  · next hm =>
    cases h
    exact within_of_marker hm
  · next m hm =>
    have hcs := marker_append hm
    have hrest := List.takeWhile_append_dropWhile (p := isSlotBlank) (l := m.rest)
    dsimp only at h
    split at h
    · next more hd =>
      rw [hd] at hrest
      have hwithin := within_of_readTicked h
      rwa [List.append_assoc, List.singleton_append, List.append_assoc, hrest, hcs] at hwithin
    · rw [within_of_readBare h]
      trivial

theorem span_of_token_error {s : Slot} {start : Nat} {x : CompileError}
    (h : s.token start = .error x) : x.span? = some ⟨start, start + s.length⟩ := by
  obtain ⟨d, lead, payload, tail, rest⟩ := s
  unfold Slot.token at h
  cases d with
  | print | ifStart | elseIf => cases h
  | elsePart | endIf | endFor =>
    simp only [Slot.bare] at h
    split at h <;> cases h
    rfl
  | forStart | embed =>
    dsimp only at h
    split at h <;> cases h
    rfl

end Slot

inductive SlotError (start total : Nat) (behind : List Char) : CompileError → Prop where
  | read {fault : SlotFault} : Slot.read behind = .error fault →
    SlotError start total behind (fault.toError start total)
  | token {s : Slot} {x : CompileError} : Slot.read behind = .ok s → s.token start = .error x →
    SlotError start total behind x

theorem SlotError.exists_span {before behind : List Char} {x : CompileError}
    (h : SlotError (byteLength before) (byteLength (before ++ opener ++ behind)) behind x) :
    ∃ s, x.span? = some s ∧ (s.Opens (before ++ opener ++ behind) ∨
      x = .expectedClose s ∧ s.Splits (before ++ opener ++ behind)) := by
  have hcovers (part tail : List Char) (hbehind : behind = part ++ tail) :
      Span.Opens ⟨byteLength before, byteLength before + byteLength (opener ++ part)⟩
        (before ++ opener ++ behind) :=
    ⟨opener ++ part, ⟨before, tail, by simp [hbehind], rfl⟩, List.prefix_append _ _⟩
  cases h with
  | @read fault hread =>
    have hwithin := Slot.within_of_read hread
    cases fault with
    | unknownDirective word n =>
      obtain ⟨part, tail, hbehind, rfl⟩ := hwithin
      have hopens := hcovers part tail hbehind
      rw [byteLength_append, ← Nat.add_assoc] at hopens
      exact ⟨_, rfl, .inl hopens⟩
    | unterminated =>
      have hopens := hcovers behind [] (by simp)
      rw [← byteLength_append, ← List.append_assoc] at hopens
      exact ⟨_, rfl, .inl hopens⟩
    | expectedClose n =>
      obtain ⟨part, c, tail, rfl, rfl⟩ := hwithin
      have hspan := Span.opens_or_splits before tail c (List.prefix_append opener part)
      simp only [byteLength_append, ← Nat.add_assoc, List.append_assoc] at hspan ⊢
      exact ⟨_, rfl, hspan.imp_right fun hsplits => ⟨rfl, hsplits⟩⟩
  | @token s _ hread ht =>
    have hopens := hcovers s.text s.rest (Slot.read_append hread).symm
    rw [byteLength_append] at hopens
    exact ⟨_, Slot.span_of_token_error ht, .inl hopens⟩

/-- Where the pieces of a text cannot be read, one of its slots is at fault. By induction on the
reading, with the text `pre` that stands in front. -/
theorem slotError_of_piecesFrom (pre : List Char) {begin pos : Nat} {text cs : List Char}
    {x : CompileError} (h : piecesFrom begin pos text cs = .error x) (hpos : pos = byteLength pre) :
    ∃ before behind, pre ++ cs = before ++ opener ++ behind ∧
      SlotError (byteLength before) (byteLength (pre ++ cs)) behind x := by
  fun_induction piecesFrom begin pos text cs generalizing pre with
  | case1 => cases h
  | case2 =>
    rename_i before behind hs start hb ih
    -- an opener behind a backslash is text, and reading goes on behind it
    have hrest := @ih (pre ++ (before ++ opener)) h (by simp [start, hpos, Nat.add_assoc])
    rwa [List.append_assoc, splitOpener_append hs] at hrest
  | case3 =>
    rename_i before behind hs start hb fault hread
    cases h
    refine ⟨pre ++ before, behind, by simp [← splitOpener_append hs], ?_⟩
    simpa [start, hpos, ← splitOpener_append hs, Nat.add_assoc] using SlotError.read hread
  | case4 =>
    rename_i before behind hs start hb s hread e ht
    cases h
    refine ⟨pre ++ before, behind, by simp [← splitOpener_append hs], .token hread ?_⟩
    rwa [byteLength_append, ← hpos]
  | case5 =>
    rename_i before behind hs start hb s hread t ht stop e hrest ih
    cases h
    have hrest := @ih (pre ++ (before ++ opener ++ s.text)) hrest
      (by simp [stop, start, hpos, Slot.length, Nat.add_assoc])
    rwa [List.append_assoc, List.append_assoc _ s.text, Slot.read_append hread,
      splitOpener_append hs] at hrest
  | case6 => cases h

theorem exists_span_of_pieces_error {source : String} {x : CompileError}
    (h : pieces source = .error x) :
    ∃ s, x.span? = some s ∧ (s.Opens source.toList ∨
      x = .expectedClose s ∧ s.Splits source.toList) := by
  obtain ⟨before, behind, hsource, herror⟩ := slotError_of_piecesFrom [] h rfl
  rw [List.nil_append] at hsource herror
  rw [hsource] at herror ⊢
  exact herror.exists_span

end Markup

end Stencil
