import Stencil.Markup.Source
set_option autoImplicit false

namespace Stencil

open Text

def CompileError.withSpan (span : Span) : CompileError → CompileError
  | .invalidFor payload _ => .invalidFor payload span
  | .invalidInclude _ => .invalidInclude span
  | .unknownDirective marker _ => .unknownDirective marker span
  | .unexpectedPayload directive payload _ => .unexpectedPayload directive payload span
  | .unterminated _ => .unterminated span
  | .expectedClose _ => .expectedClose span
  | .unbalanced directive imbalance _ => .unbalanced directive imbalance span
  | .notFound name => .notFound name

namespace Markup

def Payload.shift (n : Nat) (p : Payload) : Payload := { p with offset := p.offset + n }

def Token.shift (n : Nat) : Token → Token
  | .literal text => .literal text
  | .print p => .print (p.shift n)
  | .ifStart guard => .ifStart (guard.shift n)
  | .elseIf guard => .elseIf (guard.shift n)
  | .elsePart => .elsePart
  | .endIf => .endIf
  | .forStart index value collection => .forStart index value (collection.shift n)
  | .endFor => .endFor
  | .embed path context => .embed path (context.map (Payload.shift n))

theorem Payload.shift_zero : Payload.shift 0 = id := rfl

theorem Token.shift_zero (t : Token) : t.shift 0 = t := by
  cases t <;> simp [shift, Payload.shift_zero]

theorem trimmed_shift (cs : List Char) (offset n : Nat) :
    Payload.trimmed cs (offset + n) = (Payload.trimmed cs offset).shift n := by
  simp only [Payload.trimmed, Payload.shift]
  rw [Nat.add_right_comm]

theorem forToken?_shift (text : String) (offset n : Nat) :
    forToken? text (offset + n) = (forToken? text offset).map (Token.shift n) := by
  unfold forToken?
  split
  · rw [Nat.add_right_comm, trimmed_shift]
    dsimp only [Payload.shift]
    split <;> rfl
  · rfl

theorem embedToken?_shift (text : String) (offset n : Nat) :
    embedToken? text (offset + n) = (embedToken? text offset).map (Token.shift n) := by
  unfold embedToken?
  rw [trimmed_shift]
  generalize Payload.trimmed text.toList offset = p
  dsimp only [Payload.shift]
  rw [Nat.add_right_comm, trimmed_shift]
  generalize Payload.trimmed (p.text.toList.dropWhile fun c => !isBlank c) _ = q
  dsimp only [Payload.shift]
  split
  · rfl
  · by_cases hq : q.text = "" <;> simp [hq, Token.shift, Payload.shift]

theorem Token.shift_shift (t : Token) (m n : Nat) : (t.shift m).shift n = t.shift (m + n) := by
  cases t with
  | embed path context => cases context <;> simp [shift, Payload.shift, Nat.add_assoc]
  | _ => simp [shift, Payload.shift, Nat.add_assoc]

/-- The slot without what stands around its payload. -/
def Slot.core (s : Slot) : Slot := ⟨s.directive, [], s.payload, [], []⟩

theorem Slot.payloadAt_eq (s : Slot) (start : Nat) :
    s.payloadAt start = (s.core.payloadAt 0).shift (start + byteLength s.lead) := by
  simp only [payloadAt, core, Payload.shift, byteLength_nil, Payload.mk.injEq, true_and]
  omega

/-- What a slot says, or why it says nothing, is known from its directive and its payload. Only places
depend on where it stands and how it is spelled. -/
theorem Slot.token_eq (s : Slot) (start : Nat) :
    s.token start = ((s.core.token 0).map (Token.shift (start + byteLength s.lead))).mapError
      (CompileError.withSpan ⟨start, start + s.length⟩) := by
  have hp := s.payloadAt_eq start
  unfold token
  rw [hp]
  obtain ⟨d, lead, payload, tail, rest⟩ := s
  generalize (core ⟨d, lead, payload, tail, rest⟩).payloadAt 0 = q
  cases d with
  | print | ifStart | elseIf => rfl
  | elsePart | endIf | endFor =>
    by_cases hblank : trim payload = []
    · simp only [bare, core, hblank, if_true]
      rfl
    · simp only [bare, core, hblank, if_false]
      rfl
  | forStart =>
    simp only [Payload.shift, forToken?_shift, core]
    cases forToken? q.text q.offset <;> rfl
  | embed =>
    simp only [Payload.shift, embedToken?_shift, core]
    cases embedToken? q.text q.offset <;> rfl

theorem Slot.token_shift {s : Slot} {start : Nat} {t : Token} (h : s.token start = .ok t)
    (n : Nat) : s.token (start + n) = .ok (t.shift n) := by
  rw [token_eq] at h ⊢
  generalize s.core.token 0 = r at h ⊢
  cases r with
  | error x => cases h
  | ok t₀ =>
    obtain rfl := Except.ok.inj h
    rw [Token.shift_shift, Nat.add_right_comm start (byteLength s.lead)]
    rfl

end Markup

end Stencil
