import Mathlib.Data.List.Chain
import Stencil.Proofs.Markup.Literals
import Stencil.Proofs.Text.Boundaries
set_option autoImplicit false

/-!
# What the pieces of a source cover

The pieces of a source stand one behind the other and leave nothing out: a slot covers what is written
for it, a literal the text that it shows. Main statements: `Cut.tiles` and `pieces_lose_nothing`.
-/

namespace Stencil

open Text

namespace Markup

def slotNext (ps : List Piece) : Bool := ps.head?.any fun p => p.token.directive?.isSome

/-- A slot covers what is written for it, a literal the text that it shows. -/
def Piece.Shows (p : Piece) (slotFollows : Bool) (text : List Char) : Prop :=
  match p.token with
  | .literal t => t ≠ "" ∧ t.toList = shown slotFollows text
  | _ => opener <+: text ∧ text.getLast? = some '\x7d'

inductive Tiles : Nat → List Char → List Piece → Prop where
  | nil (pos : Nat) : Tiles pos [] []
  | cons {pos : Nat} {text cs : List Char} {p : Piece} {ps : List Piece} : text ≠ [] →
    p.span = ⟨pos, pos + byteLength text⟩ → p.Shows (slotNext ps) text →
    (p.token.directive?.isSome ∨ ∀ q ∈ ps.head?, q.token.directive?.isSome) →
    Tiles (pos + byteLength text) cs ps → Tiles pos (text ++ cs) (p :: ps)

namespace Tiles

variable {pos : Nat} {cs : List Char} {ps : List Piece}

theorem literal {raw : List Char} (hps : ∀ q ∈ ps.head?, q.token.directive?.isSome)
    (h : Tiles (pos + byteLength raw) cs ps) :
    Tiles pos (raw ++ cs)
      (literalPiece (shown (slotNext ps) raw) ⟨pos, pos + byteLength raw⟩ ++ ps) := by
  unfold literalPiece
  split
  · next hn =>
    obtain rfl := shown_eq_nil.1 hn
    exact h
  · next hn =>
    refine .cons (mt shown_eq_nil.2 hn) rfl ⟨fun he => hn ?_, String.toList_ofList⟩ (.inr hps) h
    simpa using congrArg String.toList he

theorem slot {t : Token} {text : List Char} (ht : t.directive?.isSome) (hopen : opener <+: text)
    (hclose : text.getLast? = some '\x7d') (h : Tiles (pos + byteLength text) cs ps) :
    Tiles pos (text ++ cs) (⟨t, pos, pos + byteLength text⟩ :: ps) := by
  refine .cons ?_ rfl ?_ (.inl ht) h
  · rintro rfl
    cases hclose
  · cases t with
    | literal => cases ht
    | _ => exact ⟨hopen, hclose⟩

theorem eq_nil_iff (h : Tiles pos cs ps) : ps = [] ↔ cs = [] := by
  cases h with
  | nil => simp
  | cons htext => simp [htext]

theorem start (h : Tiles pos cs ps) : ∀ p ∈ ps.head?, p.span.start = pos := by
  cases h with
  | nil => simp
  | cons _ hspan =>
    rintro p ⟨⟩
    rw [hspan]

theorem stop (h : Tiles pos cs ps) : ∀ p ∈ ps.getLast?, p.span.stop = pos + byteLength cs := by
  induction h with
  | nil => simp
  | @cons pos text cs p ps _ hspan _ _ h ih =>
    intro q hq
    rw [byteLength_append, ← Nat.add_assoc]
    cases ps with
    | nil =>
      obtain rfl : p = q := Option.some.inj hq
      obtain rfl := h.eq_nil_iff.1 rfl
      rw [hspan]
      rfl
    | cons p' ps => exact ih q (by rwa [List.getLast?_cons_cons] at hq)

theorem chain (h : Tiles pos cs ps) : ps.IsChain fun p q =>
    p.span.stop = q.span.start ∧ (p.token.directive?.isSome ∨ q.token.directive?.isSome) := by
  induction h with
  | nil => exact .nil
  | cons _ hspan _ hnext h ih =>
    refine ih.cons fun q hq => ⟨?_, hnext.imp_right fun hn => hn q hq⟩
    rw [hspan, h.start q hq]

theorem shows {pre : List Char} (h : Tiles (byteLength pre) cs ps) {before behind : List Piece}
    {p : Piece} (hp : ps = before ++ p :: behind) :
    p.span.start < p.span.stop ∧
      ∃ text, p.span.Covers (pre ++ cs) text ∧ p.Shows (slotNext behind) text := by
  generalize hpos : byteLength pre = pos at h
  induction h generalizing pre before with
  | nil => simp at hp
  | @cons pos text cs q ps htext hspan hshows _ _ ih =>
    obtain ⟨rfl, hp⟩ | ⟨before, rfl, hps⟩ := List.cons_eq_append_iff.1 hp
    · cases hp
      have hle := length_le_byteLength text
      have hpositive := List.length_pos_iff.2 htext
      refine ⟨?_, text, ⟨pre, cs, by simp, by rw [hspan, hpos]⟩, hshows⟩
      rw [hspan]
      dsimp only
      omega
    · have hpre : byteLength (pre ++ text) = pos + byteLength text := by
        rw [byteLength_append, hpos]
      have hrest := ih hps hpre
      rwa [List.append_assoc] at hrest

end Tiles

theorem directive?_forToken? {text : String} {offset : Nat} {t : Token}
    (h : forToken? text offset = some t) : t.directive? = some .forStart := by
  unfold forToken? at h
  split at h
  · dsimp only at h
    split at h <;> cases h
    rfl
  · cases h

theorem directive?_embedToken? {text : String} {offset : Nat} {t : Token}
    (h : embedToken? text offset = some t) : t.directive? = some .embed := by
  unfold embedToken? at h
  dsimp only at h
  split at h <;> cases h
  rfl

theorem directive?_token {s : Slot} {start : Nat} {t : Token} (h : s.token start = .ok t) :
    t.directive? = some s.directive := by
  obtain ⟨d, lead, payload, tail, rest⟩ := s
  unfold Slot.token at h
  cases d with
  | print | ifStart | elseIf =>
    cases h
    rfl
  | elsePart | endIf | endFor =>
    simp only [Slot.bare] at h
    split at h <;> cases h
    rfl
  | forStart =>
    dsimp only at h
    split at h
    · next hf => cases h; exact directive?_forToken? hf
    · cases h
  | embed =>
    dsimp only at h
    split at h
    · next hf => cases h; exact directive?_embedToken? hf
    · cases h

theorem getLast?_text_of_read {cs : List Char} {s : Slot} (h : Slot.read cs = .ok s) :
    s.text.getLast? = some '\x7d' := by
  rw [Slot.text, List.getLast?_append, getLast?_tail_of_read h, Option.some_or]

/-- The text that is not finished is what the source since byte `begin` shows. -/
theorem Cut.tiles {begin pos : Nat} {text cs : List Char} {ps : List Piece}
    (h : Cut begin pos text cs ps) {raw : List Char} (hr : EndsPlain raw)
    (hpos : pos = begin + byteLength raw) (htext : text = unescapeOpeners raw) :
    Tiles begin (raw ++ cs) ps := by
  induction h generalizing raw with
  | @text begin pos text cs hs =>
    have hlit : Tiles begin (raw ++ cs ++ []) (literalPiece (shown (slotNext []) (raw ++ cs))
        ⟨begin, begin + byteLength (raw ++ cs)⟩ ++ []) := .literal (by simp) (.nil _)
    have hshown : shown (slotNext []) (raw ++ cs) = text ++ cs := by
      rw [htext]
      exact shown_text hr hs
    rwa [hshown, byteLength_append, ← Nat.add_assoc, ← hpos, List.append_nil, List.append_nil]
      at hlit
  | @escaped begin pos text cs before behind ps hs hb _ ih =>
    have hstop : pos + byteLength before + byteLength opener =
        begin + byteLength (raw ++ before ++ opener) := by
      simp only [hpos, byteLength_append, Nat.add_assoc]
    have hshown := unescapeOpeners_escaped hr (splitOpener_before hs) hb
    rw [← htext] at hshown
    have hrest := ih (endsPlain_opener (raw ++ before)) hstop hshown.symm
    rwa [← splitOpener_append hs, ← List.append_assoc, ← List.append_assoc]
  | @slot begin pos text cs before behind ps s t hs hb hread ht _ ih =>
    have hrest : Tiles _ ([] ++ s.rest) ps := ih endsPlain_nil rfl rfl
    have hdir : t.directive?.isSome = true := by rw [directive?_token ht]; rfl
    have hlast : (opener ++ s.text).getLast? = some '\x7d' := by
      rw [List.getLast?_append, getLast?_text_of_read hread, Option.some_or]
    have hlength : s.length = byteLength (opener ++ s.text) := by rw [Slot.length, byteLength_append]
    rw [hlength] at hrest ⊢
    have hslot := Tiles.slot hdir (List.prefix_append opener s.text) hlast hrest
    have hstart : pos + byteLength before = begin + byteLength (raw ++ before) := by
      rw [hpos, byteLength_append, Nat.add_assoc]
    have hshown : shown true (raw ++ before) = text ++ kept before := by
      rw [htext]
      exact shown_slot hr (splitOpener_before hs) hb
    rw [hstart] at hslot ⊢
    have hnext : slotNext (⟨t, begin + byteLength (raw ++ before),
        begin + byteLength (raw ++ before) + byteLength (opener ++ s.text)⟩ :: ps) = true := hdir
    have hlit := Tiles.literal (by rintro q ⟨⟩; exact hdir) hslot
    rw [hnext, hshown] at hlit
    rw [← splitOpener_append hs, ← Slot.read_append hread]
    simpa using hlit

/-- The pieces of a source that can be read cover it from the first byte to the last, one behind the
other, and no two literals in a row. Each has a text of its own: a slot from its opener to its brace, a
literal what it shows. -/
theorem pieces_lose_nothing {source : String} {ps : List Piece} (h : pieces source = .ok ps) :
    (ps = [] ↔ source = "") ∧
    (∀ p ∈ ps.head?, p.span.start = 0) ∧
    (∀ p ∈ ps.getLast?, p.span.stop = byteLength source.toList) ∧
    (ps.IsChain fun p q => p.span.stop = q.span.start ∧
      (p.token.directive?.isSome ∨ q.token.directive?.isSome)) ∧
    ∀ before p behind, ps = before ++ p :: behind → p.span.start < p.span.stop ∧
      ∃ text, p.span.Covers source.toList text ∧ p.Shows (slotNext behind) text := by
  have htiles : Tiles 0 source.toList ps :=
    @Cut.tiles 0 0 [] source.toList ps (cut_iff.1 h) [] endsPlain_nil rfl rfl
  refine ⟨?_, htiles.start, fun p hp => ?_, htiles.chain, fun before p behind hp => ?_⟩
  · rw [htiles.eq_nil_iff, String.toList_eq_nil_iff]
  · rw [htiles.stop p hp, Nat.zero_add]
  · exact @Tiles.shows source.toList ps [] htiles before behind p hp

theorem backslashes_shown :
    let ps : List Piece := [⟨.literal "é\\", 0, 4⟩, ⟨.print ⟨"x", 6⟩, 4, 8⟩, ⟨.literal "$\x7by", 8, 12⟩]
    pieces "é\\\\$\x7bx\x7d\\$\x7by" = .ok ps ∧
      ∃ text, (⟨8, 12⟩ : Span).Covers "é\\\\$\x7bx\x7d\\$\x7by".toList text ∧
        "$\x7by".toList = shown false text := by
  intro ps
  have h : pieces "é\\\\$\x7bx\x7d\\$\x7by" = .ok ps := by decide +kernel
  obtain ⟨-, text, hcovers, -, hshown⟩ :=
    (pieces_lose_nothing h).2.2.2.2 (ps.take 2) (⟨.literal "$\x7by", 8, 12⟩) [] rfl
  exact ⟨h, text, hcovers, hshown⟩

end Markup

end Stencil
