import Stencil.Proofs.Program.Assembly
set_option autoImplicit false

/-!
# Chains as choices between two

A chain of many arms can be written with two arms at most: each `elseif` begins a chain of its own in
the last part of the one before. Here this is done to a row of tokens and to a tree. Main statements:
`unchainFrom_tokensAll`, both come to the same, and `assemble_unchained`.
-/

namespace Stencil

open Markup

/-- Writes each `elseif` as an `else` and an `if`. The numbers say how often this has been done in each
of the open chains, the innermost first; as many ends are added to the chain's own. -/
def unchainFrom : List Nat → List Token → List Token
  | _, [] => []
  | counts, .ifStart guard :: ts => .ifStart guard :: unchainFrom (0 :: counts) ts
  | n :: counts, .elseIf guard :: ts =>
    .elsePart :: .ifStart guard :: unchainFrom ((n + 1) :: counts) ts
  | n :: counts, .endIf :: ts => List.replicate (n + 1) .endIf ++ unchainFrom counts ts
  | counts, t :: ts => t :: unchainFrom counts ts

def unchained (ts : List Token) : List Token := unchainFrom [] ts

mutual

def Instruction.unchained : Instruction → Instruction
  | .literal text => .literal text
  | .print e => .print e
  | .branch arms => .branch (Arm.unchainedAll arms)
  | .loop index value collection body => .loop index value collection (Instruction.unchainedAll body)
  | .embed path context => .embed path context

def Instruction.unchainedAll : List Instruction → List Instruction
  | [] => []
  | i :: is => i.unchained :: Instruction.unchainedAll is

def Arm.unchainedAll : List Arm → List Arm
  | [] => []
  | .mk guard body :: arms => .mk guard (Instruction.unchainedAll body) :: Arm.unchainedRest arms

def Arm.unchainedRest : List Arm → List Arm
  | [] => []
  | .mk none body :: _ => [.mk none (Instruction.unchainedAll body)]
  | .mk (some guard) body :: arms =>
    [.mk none [.branch (.mk (some guard) (Instruction.unchainedAll body) :: Arm.unchainedRest arms)]]

end

mutual

theorem unchainFrom_tokens : ∀ (i : Instruction), i.WellFormed → ∀ (counts : List Nat)
    (us : List Token), unchainFrom counts (i.tokens ++ us) =
      i.unchained.tokens ++ unchainFrom counts us
  | .literal _, _, counts, us => by simp [Instruction.tokens, Instruction.unchained, unchainFrom]
  | .print _, _, counts, us => by simp [Instruction.tokens, Instruction.unchained, unchainFrom]
  | .embed _ _, _, counts, us => by simp [Instruction.tokens, Instruction.unchained, unchainFrom]
  | .loop index value collection body, h, counts, us => by
    have hbody := unchainFrom_tokensAll body h.2 counts (.endFor :: us)
    simp [Instruction.tokens, Instruction.unchained, unchainFrom, hbody]
  | .branch [], h, _, _ => by simp [Instruction.WellFormed, Arm.Chained] at h
  | .branch (.mk none body :: arms), h, _, _ => by
    simp [Instruction.WellFormed, Arm.Chained, Arm.guard] at h
  | .branch (.mk (some guard) body :: arms), ⟨⟨_, hd⟩, _, hb, ha⟩, counts, us => by
    have hd' := fun a m => hd a (Arm.dropLast_subset_cons _ arms m)
    have hbody := unchainFrom_tokensAll body hb (0 :: counts)
    have hrest := unchainFrom_tokensRest arms ha hd' 0 counts us
    simp [Instruction.tokens, Instruction.unchained, Arm.tokensAll, Arm.unchainedAll, Arm.header,
      unchainFrom, hbody, hrest]

theorem unchainFrom_tokensAll : ∀ (is : List Instruction), Instruction.AllWellFormed is →
    ∀ (counts : List Nat) (us : List Token),
      unchainFrom counts (Instruction.tokensAll is ++ us) =
        Instruction.tokensAll (Instruction.unchainedAll is) ++ unchainFrom counts us
  | [], _, counts, us => rfl
  | i :: is, h, counts, us => by
    have hi := unchainFrom_tokens i h.1 counts
    have his := unchainFrom_tokensAll is h.2 counts us
    simp [Instruction.tokensAll, Instruction.unchainedAll, hi, his]

theorem unchainFrom_tokensRest : ∀ (arms : List Arm), Arm.AllWellFormed arms →
    (∀ a ∈ arms.dropLast, a.guard.isSome) → ∀ (n : Nat) (counts : List Nat) (us : List Token),
      unchainFrom (n :: counts) (Arm.tokensAll false arms ++ .endIf :: us) =
        Arm.tokensAll false (Arm.unchainedRest arms) ++
          (List.replicate (n + 1) .endIf ++ unchainFrom counts us)
  | [], _, _, n, counts, us => by simp [Arm.tokensAll, Arm.unchainedRest, unchainFrom]
  | [.mk none body], ⟨_, hb, _⟩, _, n, counts, us => by
    have hbody := unchainFrom_tokensAll body hb (n :: counts) (.endIf :: us)
    simp [Arm.tokensAll, Arm.unchainedRest, Arm.header, unchainFrom, hbody]
  | .mk none body :: a :: arms, _, hd, _, _, _ => by simp [Arm.guard] at hd
  | .mk (some guard) body :: arms, ⟨_, hb, ha⟩, hd, n, counts, us => by
    have hd' := fun a m => hd a (Arm.dropLast_subset_cons _ arms m)
    have hbody := unchainFrom_tokensAll body hb ((n + 1) :: counts)
    have hrest := unchainFrom_tokensRest arms ha hd' (n + 1) counts us
    simp [Arm.tokensAll, Arm.unchainedRest, Arm.header, unchainFrom, hbody, hrest,
      Instruction.tokensAll, Instruction.tokens, List.replicate_succ]

end

theorem Arm.unchainedRest_cases (arms : List Arm) :
    unchainedRest arms = [] ∨ ∃ body, unchainedRest arms = [.mk none body] := by
  cases arms with
  | nil => exact .inl rfl
  | cons arm arms =>
    obtain ⟨guard, body⟩ := arm
    cases guard <;> exact .inr ⟨_, rfl⟩

theorem Arm.chained_unchainedRest (guard : Expression) (body : List Instruction)
    (arms : List Arm) : Chained (.mk (some guard) body :: unchainedRest arms) := by
  obtain h | ⟨last, h⟩ := unchainedRest_cases arms <;> simp [h, Chained, Arm.guard]

theorem Arm.Chained.unchainedAll {arms : List Arm} (h : Chained arms) :
    Chained (unchainedAll arms) := by
  obtain ⟨⟨a, ha, hguard⟩, -⟩ := h
  obtain ⟨rest, rfl⟩ := List.head?_eq_some_iff.1 ha
  obtain ⟨guard, body⟩ := a
  obtain ⟨guard, rfl⟩ := Option.isSome_iff_exists.1 hguard
  exact chained_unchainedRest guard _ rest

mutual

theorem Instruction.WellFormed.unchained : ∀ i : Instruction, i.WellFormed →
    i.unchained.WellFormed
  | .literal _, h => h
  | .print _, h => h
  | .branch arms, h => ⟨h.1.unchainedAll, Arm.AllWellFormed.unchainedAll arms h.2⟩
  | .loop _ _ _ body, h => ⟨h.1, Instruction.AllWellFormed.unchainedAll body h.2⟩
  | .embed _ _, h => h

theorem Instruction.AllWellFormed.unchainedAll : ∀ is : List Instruction,
    Instruction.AllWellFormed is → Instruction.AllWellFormed (Instruction.unchainedAll is)
  | [], _ => trivial
  | i :: is, h =>
    ⟨Instruction.WellFormed.unchained i h.1, Instruction.AllWellFormed.unchainedAll is h.2⟩

theorem Arm.AllWellFormed.unchainedAll : ∀ arms : List Arm, Arm.AllWellFormed arms →
    Arm.AllWellFormed (Arm.unchainedAll arms)
  | [], _ => trivial
  | .mk _ body :: arms, h =>
    ⟨h.1, Instruction.AllWellFormed.unchainedAll body h.2.1,
      Arm.AllWellFormed.unchainedRest arms h.2.2⟩

theorem Arm.AllWellFormed.unchainedRest : ∀ arms : List Arm, Arm.AllWellFormed arms →
    Arm.AllWellFormed (Arm.unchainedRest arms)
  | [], _ => trivial
  | .mk none body :: _, h =>
    ⟨h.1, Instruction.AllWellFormed.unchainedAll body h.2.1, trivial⟩
  | .mk (some guard) body :: arms, h => by
    have hchain : (Instruction.branch (.mk (some guard) (Instruction.unchainedAll body) ::
        Arm.unchainedRest arms)).WellFormed :=
      ⟨Arm.chained_unchainedRest guard _ arms, h.1,
        Instruction.AllWellFormed.unchainedAll body h.2.1,
        Arm.AllWellFormed.unchainedRest arms h.2.2⟩
    exact ⟨by simp, ⟨hchain, trivial⟩, trivial⟩

end

mutual

theorem Instruction.not_elseIf_mem_tokens : ∀ i : Instruction, ∀ t ∈ i.unchained.tokens,
    t.directive? ≠ some .elseIf
  | .literal _ => by simp [Instruction.unchained, Instruction.tokens, Token.directive?]
  | .print _ => by simp [Instruction.unchained, Instruction.tokens, Token.directive?]
  | .branch [] => by
    simp [Instruction.unchained, Instruction.tokens, Arm.unchainedAll, Arm.tokensAll,
      Token.directive?]
  | .branch (.mk guard body :: arms) => by
    have hbody := Instruction.not_elseIf_mem_tokensAll body
    have hrest := Arm.not_elseIf_mem_tokensRest arms
    have hheader : (Arm.header true guard).directive? ≠ some .elseIf := by
      cases guard <;> simp [Arm.header, Token.directive?]
    simp only [Instruction.unchained, Instruction.tokens, Arm.unchainedAll, Arm.tokensAll,
      List.forall_mem_append, List.forall_mem_cons]
    exact ⟨⟨hheader, hbody, hrest⟩, by simp [Token.directive?]⟩
  | .loop _ _ _ body => by
    have hbody := Instruction.not_elseIf_mem_tokensAll body
    simp only [Instruction.unchained, Instruction.tokens, List.forall_mem_append,
      List.forall_mem_cons]
    exact ⟨by simp [Token.directive?], hbody, by simp [Token.directive?]⟩
  | .embed _ _ => by simp [Instruction.unchained, Instruction.tokens, Token.directive?]

theorem Instruction.not_elseIf_mem_tokensAll : ∀ is : List Instruction,
    ∀ t ∈ Instruction.tokensAll (Instruction.unchainedAll is), t.directive? ≠ some .elseIf
  | [] => by simp [Instruction.unchainedAll, Instruction.tokensAll]
  | i :: is => by
    simp only [Instruction.unchainedAll, Instruction.tokensAll, List.forall_mem_append]
    exact ⟨Instruction.not_elseIf_mem_tokens i, Instruction.not_elseIf_mem_tokensAll is⟩

theorem Arm.not_elseIf_mem_tokensRest : ∀ arms : List Arm,
    ∀ t ∈ Arm.tokensAll false (Arm.unchainedRest arms), t.directive? ≠ some .elseIf
  | [] => by simp [Arm.unchainedRest, Arm.tokensAll]
  | .mk none body :: _ => by
    have hbody := Instruction.not_elseIf_mem_tokensAll body
    simpa [Arm.unchainedRest, Arm.tokensAll, Arm.header, Token.directive?] using hbody
  | .mk (some guard) body :: arms => by
    have hbody := Instruction.not_elseIf_mem_tokensAll body
    have hrest := Arm.not_elseIf_mem_tokensRest arms
    simp only [Arm.unchainedRest, Arm.tokensAll, Arm.header, Instruction.tokensAll,
      Instruction.tokens, List.forall_mem_append, List.forall_mem_cons]
    exact ⟨by simp [Token.directive?], ⟨⟨⟨by simp [Token.directive?], hbody, hrest⟩,
      by simp [Token.directive?]⟩, by simp⟩, by simp⟩

end

/-- Matching the blocks of a row and then unchaining is the same as unchaining the row first. -/
theorem assemble_unchained {ps qs : List Piece} {is : List Instruction}
    (h : assemble ps = .ok is) (hqs : qs.map Piece.token = unchained (ps.map Piece.token)) :
    assemble qs = .ok (Instruction.unchainedAll is) ∧
      ∀ q ∈ qs, q.token.directive? ≠ some .elseIf := by
  obtain ⟨htokens, hwf⟩ := Blocks.assemble_ok h
  have hqs' : qs.map Piece.token = Instruction.tokensAll (Instruction.unchainedAll is) := by
    have hunchained := unchainFrom_tokensAll is hwf [] []
    rw [hqs, unchained, ← htokens]
    simpa [unchainFrom] using hunchained
  refine ⟨Blocks.assemble_tokensAll (Instruction.AllWellFormed.unchainedAll is hwf) hqs', ?_⟩
  have hnone := Instruction.not_elseIf_mem_tokensAll is
  rw [← hqs', List.forall_mem_map] at hnone
  exact hnone

end Stencil
