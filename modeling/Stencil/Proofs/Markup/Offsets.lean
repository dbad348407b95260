import Stencil.Proofs.Markup.Coverage
import Stencil.Proofs.Markup.Payloads
set_option autoImplicit false

namespace Stencil

open Text Markup

/-- The text stands at byte `offset` in a slot that covers the span, between the opener and the brace. -/
def Span.Holds (slot : Span) (source : List Char) (offset : Nat) (text : List Char) : Prop :=
  ∃ before behind, slot.Covers source (opener ++ before ++ text ++ behind ++ ['\x7d']) ∧
    offset = slot.start + byteLength (opener ++ before)

theorem Span.Holds.covers {slot : Span} {source text : List Char} {offset : Nat}
    (h : slot.Holds source offset text) :
    (⟨offset, offset + byteLength text⟩ : Span).Covers source text := by
  obtain ⟨before, behind, ⟨front, back, rfl, rfl⟩, rfl⟩ := h
  refine ⟨front ++ opener ++ before, behind ++ ['\x7d'] ++ back, by simp, ?_⟩
  simp only [byteLength_append, Nat.add_assoc]

namespace Markup

theorem holds_of_payload {cs before xs text zs : List Char} {s : Slot} (hs : Slot.read cs = .ok s)
    (hpayload : s.payload = xs ++ text ++ zs) :
    let start := byteLength before
    (⟨start, start + s.length⟩ : Span).Holds (before ++ opener ++ cs)
      ((s.payloadAt start).offset + byteLength xs) text := by
  intro start
  obtain ⟨tail, htail⟩ := List.getLast?_eq_some_iff.1 (getLast?_tail_of_read hs)
  refine ⟨s.lead ++ xs, zs ++ tail, ⟨before, s.rest, ?_, ?_⟩, ?_⟩
  · rw [← Slot.read_append hs, Slot.text, hpayload, htail]
    simp only [List.append_assoc]
  · rw [Slot.length, Slot.text, hpayload, htail, ← byteLength_append]
    simp only [List.append_assoc]
    rfl
  · simp only [Slot.payloadAt, byteLength_append, Nat.add_assoc, start]

theorem Payload.Within.holds {cs before : List Char} {s : Slot} (hs : Slot.read cs = .ok s)
    {q : Payload} (h : q.Within (s.payloadAt (byteLength before))) :
    (⟨byteLength before, byteLength before + s.length⟩ : Span).Holds (before ++ opener ++ cs)
      q.offset q.text.toList := by
  obtain ⟨xs, zs, htext, hoffset⟩ := h
  rw [Slot.payloadAt, String.toList_ofList] at htext
  rw [hoffset]
  exact holds_of_payload hs htext

theorem lex_name {name : String} (h : isName name = true) :
    Expr.lex name = [⟨.ident name, 0, byteLength name.toList⟩] := by
  have hlex := @lexFrom_name name h [] (by simp) 0
  rwa [List.append_nil, Nat.zero_add, Expr.lexFrom] at hlex

theorem embed_of_token {cs before : List Char} {s : Slot} (hs : Slot.read cs = .ok s) {path : String}
    {context : Option Payload}
    (ht : s.token (byteLength before) = .ok (.embed path context)) :
    path ≠ "" ∧ (∀ c ∈ path.toList, isBlank c = false) ∧
      (∀ q ∈ context, Solid q.text.toList) ∧
      ∃ offset, (⟨byteLength before, byteLength before + s.length⟩ : Span).Holds
          (before ++ opener ++ cs) offset path.toList ∧
        ∀ q ∈ context, offset + byteLength path.toList ≤ q.offset := by
  obtain hmem | hf | he := Slot.token_eq_ok ht
  · simp at hmem
  · obtain ⟨index, value, header, behind, -, -, -, -, h⟩ := forToken?_eq_some hf
    cases h
  · obtain ⟨blanks, word, behind, more, found, htext, hne, hword, h, hcontext⟩ :=
      embedToken?_eq_some he
    cases h
    rw [Slot.payloadAt, String.toList_ofList, List.append_assoc _ behind] at htext
    rw [String.toList_ofList]
    refine ⟨?_, hword, fun q hq => ?_, _, holds_of_payload hs htext, fun q hq => ?_⟩
    · rw [← String.toList_inj.ne, String.toList_ofList]
      exact hne
    · obtain ⟨hsolid, rfl⟩ := hcontext q hq
      rwa [Payload.text_trimmed]
    · obtain ⟨-, rfl⟩ := hcontext q hq
      simp only [Payload.trimmed, byteLength_append]
      omega

theorem loop_of_token {s : Slot} {start : Nat} {index value : String} {q : Payload}
    (ht : s.token start = .ok (.forStart index value q)) :
    isName index = true ∧ isName value = true ∧ Solid q.text.toList := by
  obtain hmem | hf | he := Slot.token_eq_ok ht
  · simp at hmem
  · obtain ⟨i, v, header, behind, -, hi, hv, hsolid, h⟩ := forToken?_eq_some hf
    cases h
    exact ⟨hi, hv, by rwa [Payload.text_trimmed]⟩
  · obtain ⟨blanks, word, behind, more, context, -, -, -, h, -⟩ := embedToken?_eq_some he
    cases h

/-- Each payload stands in the slot of its directive, at the bytes that its offset and its text name. There
are no blanks at its ends but between backticks. The names of a loop are identifiers, the collection is not
empty. The path of an include is a word in its slot, and the context stands behind it. -/
theorem payloads_placed {source : String} {ps : List Piece} (h : pieces source = .ok ps) {p : Piece}
    (hp : p ∈ ps) :
    (∀ q ∈ p.token.payloads, p.span.Holds source.toList q.offset q.text.toList ∧
      (⟨q.offset, q.offset + byteLength q.text.toList⟩ : Span).Covers source.toList q.text.toList ∧
      (¬ Ticked (dropBytes (p.span.start + byteLength opener) source.toList) →
        trim q.text.toList = q.text.toList)) ∧
    (∀ index value q, p.token = .forStart index value q →
      Expr.lex index = [⟨.ident index, 0, byteLength index.toList⟩] ∧
      Expr.lex value = [⟨.ident value, 0, byteLength value.toList⟩] ∧ Solid q.text.toList) ∧
    ∀ path context, p.token = .embed path context →
      path ≠ "" ∧ (∀ c ∈ path.toList, isBlank c = false) ∧ (∀ q ∈ context, Solid q.text.toList) ∧
      ∃ offset, p.span.Holds source.toList offset path.toList ∧
        ∀ q ∈ context, offset + byteLength path.toList ≤ q.offset := by
  have hslot := exists_slot_of_mem_pieces h hp
  refine ⟨fun q hq => ?_, fun index value q htoken => ?_, fun path context htoken => ?_⟩
  · obtain ⟨before, cs, s, hsource, hs, ht, hspan⟩ := hslot (directive?_of_mem_payloads hq)
    rw [hsource, hspan, ← byteLength_append, dropBytes_append]
    obtain ⟨hwithin, hwhole⟩ := within_of_token ht q hq
    refine ⟨hwithin.holds hs, (hwithin.holds hs).covers, fun hbare => ?_⟩
    obtain rfl | hsolid := hwhole
    · rw [Slot.payloadAt, String.toList_ofList]
      exact (trim_payload_of_read hs).resolve_right fun hticked => hbare hticked.1
    · exact hsolid.trim_self
  · obtain ⟨before, cs, s, -, -, ht, -⟩ := hslot (by rw [htoken]; rfl)
    obtain ⟨hi, hv, hsolid⟩ := loop_of_token (htoken ▸ ht)
    exact ⟨lex_name hi, lex_name hv, hsolid⟩
  · obtain ⟨before, cs, s, hsource, hs, ht, hspan⟩ := hslot (by rw [htoken]; rfl)
    rw [hsource, hspan]
    exact embed_of_token hs (htoken ▸ ht)

theorem context_placed :
    let source := "é$\x7binclude \u2003p/é\u00a0\x7bn: '\x7d'\x7d\t\x7d"
    let q : Payload := ⟨"\x7bn: '\x7d'\x7d", 21⟩
    pieces source = .ok [⟨.literal "é", 0, 2⟩, ⟨.embed "p/é" (some q), 2, 31⟩] ∧
      (⟨2, 31⟩ : Span).Holds source.toList 21 q.text.toList ∧
      ∃ offset, (⟨2, 31⟩ : Span).Holds source.toList offset "p/é".toList ∧ offset + 4 ≤ 21 := by
  intro source q
  have hpieces : pieces source = .ok [⟨.literal "é", 0, 2⟩, ⟨.embed "p/é" (some q), 2, 31⟩] := by
    decide +kernel
  obtain ⟨hplaced, -, hembed⟩ :=
    payloads_placed hpieces (List.mem_cons_of_mem _ (List.mem_singleton_self _))
  obtain ⟨-, -, -, offset, hpath, hcontext⟩ := hembed "p/é" (some q) rfl
  exact ⟨hpieces, (hplaced q (List.mem_singleton_self q)).1, offset, hpath, hcontext q rfl⟩

end Markup

end Stencil
