import Stencil.Proofs.Expr.Places
import Stencil.Proofs.Markup.Cuts
import Stencil.Proofs.Markup.Headers
set_option autoImplicit false

namespace Stencil.Markup

open Text

def Token.payloads : Token → List Payload
  | .print p | .ifStart p | .elseIf p | .forStart _ _ p => [p]
  | .embed _ context => context.toList
  | .literal _ | .elsePart | .endIf | .endFor => []

/-- The payload stands at its offset in a text that begins at byte `start`. It is without blanks at its
ends, or a backtick stands in front of it. -/
def Payload.StandsIn (p : Payload) (cs : List Char) (start : Nat) : Prop :=
  ∃ before behind, cs = before ++ p.text.toList ++ behind ∧ p.offset = start + byteLength before ∧
    (trim p.text.toList = p.text.toList ∨ before.getLast? = some '\x60')

theorem trim_trim (cs : List Char) : trim (trim cs) = trim cs := by
  by_cases h : trim cs = []
  · rw [h]
    rfl
  · exact (solid_trim h).trim_self

theorem trim_parts (cs : List Char) :
    leadingBlanks cs ++ trim cs ++ trailingBlanks (trimStart cs) = cs := by
  rw [List.append_assoc, trim, trimEnd_append_trailingBlanks, leadingBlanks_append_trimStart]

namespace Payload

variable {p : Payload} {cs xs ys zs : List Char} {start : Nat}

theorem StandsIn.append_left (h : p.StandsIn cs (start + byteLength xs)) :
    p.StandsIn (xs ++ cs) start := by
  obtain ⟨before, behind, rfl, hoffset, hends⟩ := h
  refine ⟨xs ++ before, behind, by simp, by rw [hoffset, byteLength_append, Nat.add_assoc], ?_⟩
  refine hends.imp_right fun htick => ?_
  rw [List.getLast?_append, htick, Option.some_or]

/-- The payload is a part of the other one, and its place says which. -/
def Within (q p : Payload) : Prop :=
  ∃ xs zs, p.text.toList = xs ++ q.text.toList ++ zs ∧ q.offset = p.offset + byteLength xs

theorem within_self (p : Payload) : p.Within p := ⟨[], [], by simp, rfl⟩

theorem text_trimmed (cs : List Char) (offset : Nat) :
    (Payload.trimmed cs offset).text.toList = trim cs := String.toList_ofList

theorem trimmed_within (hp : p.text.toList = xs ++ ys ++ zs) :
    (Payload.trimmed ys (p.offset + byteLength xs)).Within p := by
  refine ⟨xs ++ leadingBlanks ys, trailingBlanks (trimStart ys) ++ zs, ?_, ?_⟩
  · rw [hp, text_trimmed]
    conv => lhs; rw [← trim_parts ys]
    simp only [List.append_assoc]
  · rw [byteLength_append, ← Nat.add_assoc]
    rfl

theorem StandsIn.within {q : Payload} (h : p.StandsIn cs start) (hq : q.Within p)
    (ht : trim q.text.toList = q.text.toList) : q.StandsIn cs start := by
  obtain ⟨before, behind, rfl, hoffset, -⟩ := h
  obtain ⟨xs, zs, hp, hplace⟩ := hq
  refine ⟨before ++ xs, zs ++ behind, ?_, ?_, .inl ht⟩
  · rw [hp]
    simp only [List.append_assoc]
  · rw [hplace, hoffset, byteLength_append, Nat.add_assoc]

end Payload

def Ticked (cs : List Char) : Prop :=
  ∃ m, marker cs = .ok m ∧ (m.rest.dropWhile isSlotBlank).head? = some '\x60'

theorem trim_payload_of_read {cs : List Char} {s : Slot} (h : Slot.read cs = .ok s) :
    trim s.payload = s.payload ∨ Ticked cs ∧ s.lead.getLast? = some '\x60' := by
  unfold Slot.read at h
  split at h
  · cases h
  · next m hm =>
    dsimp only at h
    split at h
    · next more hd =>
      have hticked : Ticked cs := ⟨m, hm, by rw [hd]; rfl⟩
      unfold Slot.readTicked at h
      dsimp only at h
      split at h
      · cases h
      · split at h
        · cases h
        · split at h
          · cases h
            exact .inr ⟨hticked, by simp⟩
          · cases h
    · unfold Slot.readBare at h
      split at h
      · cases h
      · cases h
        exact .inl (trim_trim _)

theorem isName_of_mem_lexFrom {cs : List Char} {name : String} {span : Span} {start : Nat}
    (h : ⟨.ident name, span⟩ ∈ Expr.lexFrom start cs) : isName name = true := by
  induction cs using Expr.lex_induction generalizing start with
  | nil => simp [Expr.lexFrom] at h
  | blank c cs hb ih =>
    rw [Expr.lexFrom_blank hb] at h
    exact ih h
  | token c cs hb ih =>
    rw [Expr.lexFrom_munch hb] at h
    obtain h | h := List.mem_cons.1 h
    · have hm := Expr.munched_munch c cs
      generalize Expr.munch c cs = r at hm h
      cases hm with
      | word hc =>
        have hword := congrArg Expr.Lexeme.token h
        unfold Expr.wordToken at hword
        split at hword
        · cases hword
        · next hkey =>
          obtain rfl := Expr.Token.ident.inj hword
          have hpart : ∀ d ∈ cs.takeWhile Expr.isNamePart, Expr.isNamePart d = true :=
            fun d => List.mem_takeWhile_imp
          simp [isName, hc, hkey, List.all_eq_true.2 hpart]
      | _ => cases h
    · exact ih h

theorem forToken?_eq_some {text : String} {offset : Nat} {t : Token}
    (h : forToken? text offset = some t) : ∃ index value header behind,
      text.toList = header ++ behind ∧ isName index = true ∧ isName value = true ∧
        Solid (trim behind) ∧
        t = .forStart index value (Payload.trimmed behind (offset + byteLength header)) := by
  unfold forToken? at h
  split at h
  · next i s₁ s₂ v s₃ s ls hlex =>
    have hindex : ⟨.ident i, s₁⟩ ∈ Expr.lex text := by simp [hlex]
    have hvalue : ⟨.ident v, s₃⟩ ∈ Expr.lex text := by simp [hlex]
    have hmem : (⟨.keyword .in, s⟩ : Expr.Lexeme) ∈ Expr.lexFrom (byteLength []) text.toList := by
      rw [byteLength_nil, ← Expr.lex, hlex]
      simp
    obtain ⟨part, -, before, behind, htext, hs⟩ := Expr.covers_of_mem_lexFrom [] hmem
    rw [List.nil_append] at htext
    obtain rfl : s = ⟨byteLength before, byteLength before + byteLength part⟩ := hs
    dsimp only at h
    rw [htext, ← byteLength_append, dropBytes_append] at h
    split at h
    · cases h
    · next hne =>
      obtain rfl := Option.some.inj h
      refine ⟨i, v, before ++ part, behind, htext, isName_of_mem_lexFrom hindex,
        isName_of_mem_lexFrom hvalue, solid_trim fun hnil => hne ?_, rfl⟩
      rw [← String.toList_inj, Payload.text_trimmed, hnil]
      rfl
  · cases h

theorem embedToken?_eq_some {text : String} {offset : Nat} {t : Token}
    (h : embedToken? text offset = some t) : ∃ blanks path behind more context,
      text.toList = blanks ++ path ++ behind ++ more ∧ path ≠ [] ∧
        (∀ c ∈ path, isBlank c = false) ∧ t = .embed (String.ofList path) context ∧
        ∀ q ∈ context, Solid (trim behind) ∧
          q = Payload.trimmed behind (offset + byteLength (blanks ++ path)) := by
  unfold embedToken? at h
  dsimp only at h
  rw [Payload.text_trimmed] at h
  split at h
  · cases h
  · next hne =>
    obtain rfl := Option.some.inj h
    refine ⟨leadingBlanks text.toList, _, (trim text.toList).dropWhile fun c => !isBlank c,
      trailingBlanks (trimStart text.toList), _, ?_, hne, fun c hc => ?_, rfl, fun q hq => ?_⟩
    · rw [List.append_assoc (leadingBlanks _), List.takeWhile_append_dropWhile, trim_parts]
    · simpa using List.mem_takeWhile_imp hc
    · split at hq
      · cases hq
      · next hcontext =>
        obtain rfl := Option.some.inj hq
        refine ⟨solid_trim fun hnil => hcontext ?_, ?_⟩
        · rw [← String.toList_inj, Payload.text_trimmed, hnil]
          rfl
        · rw [byteLength_append, ← Nat.add_assoc]
          rfl

/-- A token has the payload of its slot, none, or what a header leaves of it. -/
theorem Slot.token_eq_ok {s : Slot} {start : Nat} {t : Token} (h : s.token start = .ok t) :
    let p := s.payloadAt start
    t ∈ [.print p, .ifStart p, .elseIf p, .elsePart, .endIf, .endFor] ∨
      forToken? p.text p.offset = some t ∨ embedToken? p.text p.offset = some t := by
  intro p
  obtain ⟨d, lead, payload, tail, rest⟩ := s
  unfold Slot.token at h
  cases d with
  | print | ifStart | elseIf =>
    cases h
    simp [p]
  | elsePart | endIf | endFor =>
    simp only [Slot.bare] at h
    split at h <;> cases h
    simp
  | forStart =>
    dsimp only at h
    split at h
    · next hf =>
      cases h
      exact .inr (.inl hf)
    · cases h
  | embed =>
    dsimp only at h
    split at h
    · next hf =>
      cases h
      exact .inr (.inr hf)
    · cases h

/-- A payload of a token is a part of that of its slot: the whole, or one without blanks at its ends. -/
theorem within_of_token {s : Slot} {start : Nat} {t : Token} (h : s.token start = .ok t) :
    ∀ q ∈ t.payloads, q.Within (s.payloadAt start) ∧
      (q = s.payloadAt start ∨ Solid q.text.toList) := by
  intro q hq
  have hinv := Slot.token_eq_ok h
  generalize s.payloadAt start = p at hinv ⊢
  obtain ht | hf | he := hinv
  · have hwhole : q = p := by
      simp only [List.mem_cons, List.not_mem_nil, or_false] at ht
      obtain rfl | rfl | rfl | rfl | rfl | rfl := ht
      all_goals simp_all [Token.payloads]
    exact ⟨hwhole ▸ q.within_self, .inl hwhole⟩
  · obtain ⟨index, value, header, behind, htext, -, -, hsolid, rfl⟩ := forToken?_eq_some hf
    obtain rfl := List.mem_singleton.1 hq
    have hparts : p.text.toList = header ++ behind ++ [] := by rw [htext, List.append_nil]
    exact ⟨Payload.trimmed_within hparts, .inr (by rwa [Payload.text_trimmed])⟩
  · obtain ⟨blanks, path, behind, more, context, htext, -, -, rfl, hcontext⟩ :=
      embedToken?_eq_some he
    obtain ⟨hsolid, rfl⟩ := hcontext q (Option.mem_toList.1 hq)
    exact ⟨Payload.trimmed_within htext, .inr (by rwa [Payload.text_trimmed])⟩

theorem standsIn_of_token {cs : List Char} {s : Slot} (hs : Slot.read cs = .ok s) {start : Nat}
    {t : Token} (ht : s.token start = .ok t) :
    ∀ q ∈ t.payloads, q.StandsIn (opener ++ cs) start := by
  have hslot : (s.payloadAt start).StandsIn (opener ++ cs) start := by
    refine ⟨opener ++ s.lead, s.tail ++ s.rest, ?_, ?_, ?_⟩
    · rw [← Slot.read_append hs]
      simp [Slot.text, Slot.payloadAt]
    · simp only [Slot.payloadAt, byteLength_append, Nat.add_assoc]
    · rw [Slot.payloadAt, String.toList_ofList, List.getLast?_append]
      refine (trim_payload_of_read hs).imp_right fun htick => ?_
      rw [htick.2, Option.some_or]
  intro q hq
  obtain ⟨hwithin, rfl | hsolid⟩ := within_of_token ht q hq
  · exact hslot
  · exact hslot.within hwithin hsolid.trim_self

theorem directive?_of_mem_payloads {t : Token} {q : Payload} (h : q ∈ t.payloads) :
    t.directive?.isSome := by
  cases t with
  | literal => cases h
  | _ => rfl

theorem standsIn_of_mem_pieces {source : String} {ps : List Piece} (h : pieces source = .ok ps)
    {p : Piece} (hp : p ∈ ps) {q : Payload} (hq : q ∈ p.token.payloads) :
    q.StandsIn source.toList 0 := by
  obtain ⟨before, behind, s, hsource, hs, ht, -⟩ :=
    exists_slot_of_mem_pieces h hp (directive?_of_mem_payloads hq)
  rw [← Nat.zero_add (byteLength before)] at ht
  rw [hsource, List.append_assoc]
  exact (standsIn_of_token hs ht q hq).append_left

end Stencil.Markup
