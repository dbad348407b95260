import Stencil.Proofs.Program.Assembly
import Stencil.Proofs.Program.CompileErrors
set_option autoImplicit false

/-!
# Where blocks stop matching

Each open block holds the tokens since the directive that began it, and all of them can still be
ended. So matching goes on exactly as long as the tokens can go on to be well nested. Main statements:
`Blocks.Holds.step`, `nests_iff_run` and `assemble_error_first`.
-/

namespace Stencil

open Markup

/-- With some tokens behind it the row is well nested. -/
def Nests (ts : List Token) : Prop := ∃ us, WellNested (ts ++ us)

theorem Nests.of_append {ts us : List Token} (h : Nests (ts ++ us)) : Nests ts := by
  obtain ⟨vs, h⟩ := h
  exact ⟨us ++ vs, by simpa using h⟩

/-- The row is a block without its end. All blocks inside of it have theirs. -/
inductive Unended : Directive → List Token → Prop where
  | chain {guard : Payload} {ts : List Token} : Whole (.ifStart guard :: (ts ++ [.endIf])) →
    Unended .ifStart (.ifStart guard :: ts)
  | loop {index value : String} {collection : Payload} {ts : List Token} :
    Whole (.forStart index value collection :: (ts ++ [.endFor])) →
    Unended .forStart (.forStart index value collection :: ts)

namespace Block

def ending : Block → Token
  | .chain .. => .endIf
  | .loop .. => .endFor

theorem tokens_closed (k : Block) : k.closed.tokens = k.tokens ++ [k.ending] := by cases k <;> rfl

theorem unended {k : Block} (h : k.closed.WellFormed) : Unended k.directive k.tokens := by
  have hwhole := whole_tokens k.closed h
  rw [tokens_closed] at hwhole
  cases k with
  | chain arms guard body span =>
    obtain ⟨⟨⟨a, hhead, hguard⟩, -⟩, -⟩ := h
    simp only [tokens] at hwhole ⊢
    obtain ⟨rest, harms⟩ := List.head?_eq_some_iff.1 hhead
    obtain ⟨g, first⟩ := a
    obtain ⟨g, rfl⟩ := Option.isSome_iff_exists.1 hguard
    rw [harms] at hwhole ⊢
    exact .chain hwhole
  | loop index value collection body span => exact .loop hwhole

end Block

namespace Blocks

variable {b c : Blocks} {p : Piece} {ps qs : List Piece}

theorem length_stack_add (b : Blocks) (i : Instruction) :
    (b.add i).stack.length = b.stack.length := by
  simpa [spans] using congrArg List.length (spans_add b i)

/-- The open blocks can be ended, from the innermost outwards. -/
theorem WellFormed.nests (h : b.WellFormed) : Nests b.tokens := by
  induction hn : b.stack.length generalizing b with
  | zero =>
    have hs : b.stack = [] := List.eq_nil_of_length_eq_zero hn
    have hroot := wellNested_tokensAll b.root h.1
    exact ⟨[], by simpa [tokens, hs, stackTokens] using hroot⟩
  | succ n ih =>
    obtain ⟨k, ks, hs⟩ := List.exists_cons_of_length_eq_add_one hn
    have hclose : Takes b k.ending (Blocks.add ⟨b.root, ks⟩ k.closed) := .close hs k.tokens_closed
    have hlength : (Blocks.add ⟨b.root, ks⟩ k.closed).stack.length = n := by
      rw [length_stack_add]
      simpa [hs] using hn
    have hnests := ih (h.takes hclose) hlength
    rw [tokens_takes hclose] at hnests
    exact hnests.of_append

/-- The pieces end with those that each open block has taken, from the one on that began it. -/
inductive Holds : List Block → List Piece → Prop where
  | root (ps : List Piece) : Holds [] ps
  | block {k : Block} {ks : List Block} {before after : List Piece} {p : Piece} :
    Holds ks before → p.span = k.span → (p :: after).map Piece.token = k.tokens →
    Holds (k :: ks) (before ++ p :: after)

theorem Holds.add {i : Instruction} (h : Holds b.stack ps) (hi : qs.map Piece.token = i.tokens) :
    Holds (b.add i).stack (ps ++ qs) := by
  obtain ⟨root, stack⟩ := b
  cases h with
  | root => exact .root _
  | @block k ks before after p hks hspan htokens =>
    rw [List.append_assoc, List.cons_append]
    cases k with
    | chain | loop =>
      refine .block hks hspan ?_
      rw [← List.cons_append, List.map_append, htokens, hi]
      simp [Block.tokens, Arm.tokensAll_append_one, Instruction.tokensAll]

theorem Holds.step (h : Holds b.stack ps) (hs : b.step p = .ok c) : Holds c.stack (ps ++ [p]) := by
  -- Of the three ways in which the spans can change, their number leaves the one that fits the case.
  have hspans := spans_eq_of_step hs
  cases takes_step hs with
  | add _ hi => exact h.add hi.symm
  | @begin k _ hk =>
    have hspan : k.span = p.span := by
      rcases hspans with hc | hc | ⟨-, hc⟩
      · simpa [spans] using congrArg List.length hc
      · have := congrArg List.length hc
        simp [spans] at this
        omega
      · exact (List.cons.inj hc).1
    exact .block h hspan.symm (by simp [hk])
  | @next k l rest hstack _ hl =>
    rw [hstack] at h
    cases h with
    | @block _ _ before after q hks hspan htokens =>
      have hspan' : l.span = k.span := by
        simp only [spans, hstack, List.map_cons, List.tail_cons] at hspans
        rcases hspans with hc | hc | ⟨-, hc⟩
        · exact (List.cons.inj hc).1
        · simpa using congrArg List.length hc
        · simpa using congrArg List.length hc
      rw [List.append_assoc, List.cons_append]
      refine .block hks (hspan.trans hspan'.symm) ?_
      rw [← List.cons_append, List.map_append, htokens, hl]
      rfl
  | @close k rest hstack hk =>
    rw [hstack] at h
    cases h with
    | @block _ _ before after q hks _ htokens =>
      rw [List.append_assoc, List.cons_append, ← List.cons_append]
      refine Holds.add (b := ⟨b.root, rest⟩) hks ?_
      rw [List.map_append, htokens, hk]
      rfl

theorem Holds.run (h : Holds b.stack ps) (hr : b.run qs = .ok c) : Holds c.stack (ps ++ qs) := by
  induction qs generalizing b ps with
  | nil =>
    cases hr
    simpa using h
  | cons q qs ih =>
    rw [Blocks.run] at hr
    split at hr
    · next hs => simpa using ih (h.step hs) hr
    · cases hr

end Blocks

/-- Matching goes through a row if and only if it can go on to be well nested. -/
theorem nests_iff_run {ps : List Piece} :
    Nests (ps.map Piece.token) ↔ ∃ b, Blocks.empty.run ps = .ok b := by
  constructor
  · rintro ⟨us, h⟩
    obtain ⟨is, hwf, htokens⟩ := h.exists_tree
    let qs : List Piece := us.map fun t => ⟨t, ⟨0, 0⟩⟩
    have hmap : (ps ++ qs).map Piece.token = Instruction.tokensAll is := by
      simp [qs, htokens, Function.comp_def]
    have hrun := Blocks.run_tokensAll is hwf .empty hmap
    rw [Blocks.run_append] at hrun
    cases hps : Blocks.empty.run ps with
    | ok b => exact ⟨b, rfl⟩
    | error x =>
      rw [hps] at hrun
      cases hrun
  · rintro ⟨b, h⟩
    have htokens : b.tokens = ps.map Piece.token := Blocks.tokens_run h
    exact htokens ▸ (Blocks.empty_wellFormed.run h).nests

/-- Blocks that do not match are reported at the first token with which the row can no longer go on to
be well nested, by the name of its directive. If there is none, the innermost block without an end is
reported, where it begins. -/
theorem assemble_error_first {ps : List Piece} {x : CompileError} (h : assemble ps = .error x) :
    (∃ before p after d i, ps = before ++ p :: after ∧ Nests (before.map Piece.token) ∧
      ¬ Nests ((before ++ [p]).map Piece.token) ∧ p.token.directive? = some d ∧
      x = .unbalanced d i p.span) ∨
    (Nests (ps.map Piece.token) ∧ ∃ before p after d i, ps = before ++ p :: after ∧
      Unended d ((p :: after).map Piece.token) ∧ x = .unbalanced d i p.span) := by
  unfold assemble at h
  cases hr : Blocks.empty.run ps with
  | error y =>
    rw [hr] at h
    cases h
    obtain ⟨before, p, after, c, rfl, hrun, hp⟩ := Blocks.exists_of_run_error hr
    obtain ⟨d, i, hd, hx⟩ := Blocks.exists_unbalanced_of_step hp
    refine .inl ⟨before, p, after, d, i, rfl, nests_iff_run.2 ⟨c, hrun⟩, ?_, hd, hx⟩
    rw [nests_iff_run, Blocks.run_append, hrun]
    simp [Except.bind, Blocks.run, hp]
  | ok b =>
    rw [hr] at h
    obtain ⟨k, ks, i, hstack, hx⟩ := Blocks.exists_unbalanced_of_finish h
    have hholds : Blocks.Holds b.stack ps := (Blocks.Holds.root []).run (b := .empty) hr
    have hwf := (Blocks.empty_wellFormed.run hr).2 k (hstack ▸ List.mem_cons_self)
    rw [hstack] at hholds
    cases hholds with
    | @block _ _ before after p _ hspan htokens =>
      exact .inr ⟨nests_iff_run.2 ⟨b, hr⟩, before, p, after, k.directive, i, rfl,
        htokens ▸ Block.unended hwf, hspan ▸ hx⟩

theorem open_chain_innermost :
    let ps : List Piece := [⟨.forStart "i" "v" ⟨"b", 11⟩, ⟨0, 13⟩⟩, ⟨.ifStart ⟨"a", 18⟩, ⟨13, 20⟩⟩,
      ⟨.forStart "j" "w" ⟨"v", 34⟩, ⟨20, 36⟩⟩, ⟨.endFor, ⟨36, 45⟩⟩, ⟨.elsePart, ⟨45, 52⟩⟩]
    assemble ps = .error (.unbalanced .ifStart .missingEndIf ⟨13, 20⟩) ∧
      Nests (ps.map Piece.token) ∧ ∃ before p after, ps = before ++ p :: after ∧
        p.span = ⟨13, 20⟩ ∧ Unended .ifStart ((p :: after).map Piece.token) := by
  intro ps
  have h : assemble ps = .error (.unbalanced .ifStart .missingEndIf ⟨13, 20⟩) := rfl
  have hnests : Nests (ps.map Piece.token) := nests_iff_run.2 ⟨_, rfl⟩
  obtain ⟨before, p, after, d, i, hps, -, hstuck, -⟩ |
    ⟨-, before, p, after, d, i, hps, hopen, hx⟩ := assemble_error_first h
  · rw [hps, List.append_cons, List.map_append] at hnests
    exact absurd hnests.of_append hstuck
  · obtain ⟨rfl, -, hspan⟩ := CompileError.unbalanced.inj hx
    exact ⟨h, hnests, before, p, after, hps, hspan.symm, hopen⟩

end Stencil
