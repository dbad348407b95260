import Stencil.Markup.Source
set_option autoImplicit false

/-!
# Cutting a source

The three things that can come next in a source: no more slots, an opener that is text, or a slot. The
pieces of a source that can be read come about by these. Main statements: `cut_iff` and
`exists_slot_of_mem_pieces`.
-/

namespace Stencil.Markup

open Text

def kept (before : List Char) : List Char :=
  if backslashes before = 0 then before else before.dropLast

section

variable {begin pos : Nat} {text cs before behind : List Char}

theorem piecesFrom_of_none (h : splitOpener cs = none) :
    piecesFrom begin pos text cs =
      .ok (literalPiece (text ++ cs) ⟨begin, pos + byteLength cs⟩) := by
  rw [piecesFrom]
  split
  · rfl
  · next hs => simp [h] at hs

theorem piecesFrom_of_escaped (h : splitOpener cs = some (before, behind))
    (hb : backslashes before = 1) :
    piecesFrom begin pos text cs =
      piecesFrom begin (pos + byteLength before + byteLength opener)
        (text ++ before.dropLast ++ opener) behind := by
  rw [piecesFrom]
  split
  · next hs => simp [h] at hs
  · next hs =>
    rw [h] at hs
    cases hs
    rw [if_pos hb]

theorem piecesFrom_of_slot (h : splitOpener cs = some (before, behind))
    (hb : backslashes before ≠ 1) {s : Slot} (hs : Slot.read behind = .ok s) {t : Token}
    (ht : s.token (pos + byteLength before) = .ok t) :
    piecesFrom begin pos text cs =
      (piecesFrom (pos + byteLength before + s.length) (pos + byteLength before + s.length) []
        s.rest).map fun ps =>
          literalPiece (text ++ kept before) ⟨begin, pos + byteLength before⟩ ++
            ⟨t, pos + byteLength before, pos + byteLength before + s.length⟩ :: ps := by
  rw [piecesFrom]
  split
  · next hn => simp [h] at hn
  · next hn =>
    rw [h] at hn
    cases hn
    rw [if_neg hb]
    split
    · next fault hf => simp [hs] at hf
    · next s' hs' =>
      rw [hs] at hs'
      cases hs'
      simp only [ht, kept]
      cases piecesFrom (pos + byteLength before + s.length) (pos + byteLength before + s.length) []
        s.rest <;> rfl

theorem piecesFrom_of_token_error (h : splitOpener cs = some (before, behind))
    (hb : backslashes before ≠ 1) {s : Slot} (hs : Slot.read behind = .ok s) {x : CompileError}
    (hx : s.token (pos + byteLength before) = .error x) : piecesFrom begin pos text cs = .error x := by
  rw [piecesFrom]
  split
  · next hn => simp [h] at hn
  · next hn =>
    rw [h] at hn
    cases hn
    rw [if_neg hb]
    split
    · next fault hf => simp [hs] at hf
    · next s' hs' =>
      rw [hs] at hs'
      cases hs'
      simp only [hx]

end

/-- How the pieces of a text come about, where they all can be read. -/
inductive Cut : Nat → Nat → List Char → List Char → List Piece → Prop where
  | text {begin pos : Nat} {text cs : List Char} : splitOpener cs = none →
    Cut begin pos text cs (literalPiece (text ++ cs) ⟨begin, pos + byteLength cs⟩)
  | escaped {begin pos : Nat} {text cs before behind : List Char} {ps : List Piece} :
    splitOpener cs = some (before, behind) → backslashes before = 1 →
    Cut begin (pos + byteLength before + byteLength opener) (text ++ before.dropLast ++ opener)
      behind ps → Cut begin pos text cs ps
  | slot {begin pos : Nat} {text cs before behind : List Char} {ps : List Piece} {s : Slot}
    {t : Token} : splitOpener cs = some (before, behind) → backslashes before ≠ 1 →
    Slot.read behind = .ok s → s.token (pos + byteLength before) = .ok t →
    Cut (pos + byteLength before + s.length) (pos + byteLength before + s.length) [] s.rest ps →
    Cut begin pos text cs (literalPiece (text ++ kept before) ⟨begin, pos + byteLength before⟩ ++
      ⟨t, pos + byteLength before, pos + byteLength before + s.length⟩ :: ps)

theorem cut_iff {begin pos : Nat} {text cs : List Char} {ps : List Piece} :
    piecesFrom begin pos text cs = .ok ps ↔ Cut begin pos text cs ps := by
  constructor
  · intro h
    fun_induction piecesFrom begin pos text cs generalizing ps with
    | case1 begin pos text cs hs =>
      cases h
      exact .text hs
    | case2 =>
      rename_i hs start hb ih
      exact .escaped hs hb (ih h)
    | case3 => cases h
    | case4 => cases h
    | case5 => cases h
    | case6 =>
      rename_i hs start hb s hr t ht stop text rest hrest ih
      cases h
      exact .slot hs hb hr ht (ih hrest)
  · intro h
    induction h with
    | text hs => exact piecesFrom_of_none hs
    | escaped hs hb _ ih => rw [piecesFrom_of_escaped hs hb, ih]
    | slot hs hb hr ht _ ih =>
      rw [piecesFrom_of_slot hs hb hr ht, ih]
      rfl

theorem directive?_of_mem_literalPiece {text : List Char} {span : Span} {p : Piece}
    (h : p ∈ literalPiece text span) : p.token.directive? = none := by
  unfold literalPiece at h
  split at h
  · cases h
  · rw [List.mem_singleton.1 h]
    rfl

/-- Each directive of a text is that of a slot, which is read where the directive stands. -/
theorem Cut.exists_slot {begin pos : Nat} {text cs : List Char} {ps : List Piece}
    (h : Cut begin pos text cs ps) : ∀ p ∈ ps, p.token.directive?.isSome →
      ∃ before behind s, cs = before ++ opener ++ behind ∧ Slot.read behind = .ok s ∧
        s.token (pos + byteLength before) = .ok p.token ∧
        p.span = ⟨pos + byteLength before, pos + byteLength before + s.length⟩ := by
  induction h with
  | text hs =>
    intro p hp hd
    rw [directive?_of_mem_literalPiece hp] at hd
    cases hd
  | @escaped begin pos text cs before behind ps hs hb _ ih =>
    intro p hp hd
    obtain ⟨front, back, s, rfl, hs', ht, hspan⟩ := ih p hp hd
    refine ⟨before ++ opener ++ front, back, s, ?_, hs', ?_, ?_⟩
    · rw [← splitOpener_append hs]
      simp only [List.append_assoc]
    · simpa only [byteLength_append, Nat.add_assoc] using ht
    · simpa only [byteLength_append, Nat.add_assoc] using hspan
  | @slot begin pos text cs before behind ps s t hs hb hread ht _ ih =>
    intro p hp hd
    obtain hp | hp := List.mem_append.1 hp
    · rw [directive?_of_mem_literalPiece hp] at hd
      cases hd
    · obtain rfl | hp := List.mem_cons.1 hp
      · exact ⟨before, behind, s, (splitOpener_append hs).symm, hread, ht, rfl⟩
      · obtain ⟨front, back, s', hrest, hs', ht', hspan⟩ := ih p hp hd
        have hpos : pos + byteLength before + s.length + byteLength front =
            pos + byteLength (before ++ opener ++ s.text ++ front) := by
          rw [Slot.length]
          simp only [byteLength_append]
          omega
        rw [hpos] at ht' hspan
        refine ⟨before ++ opener ++ s.text ++ front, back, s', ?_, hs', ht', hspan⟩
        rw [← splitOpener_append hs, ← Slot.read_append hread, hrest]
        simp only [List.append_assoc]

theorem exists_slot_of_mem_pieces {source : String} {ps : List Piece} (h : pieces source = .ok ps)
    {p : Piece} (hp : p ∈ ps) (hd : p.token.directive?.isSome) :
    ∃ before behind s, source.toList = before ++ opener ++ behind ∧ Slot.read behind = .ok s ∧
      s.token (byteLength before) = .ok p.token ∧
      p.span = ⟨byteLength before, byteLength before + s.length⟩ := by
  have hslot := (cut_iff.1 h).exists_slot p hp hd
  simpa only [Nat.zero_add] using hslot

end Stencil.Markup
