import Stencil.Program.Blocks
import Stencil.Proofs.Markup.Coverage
import Stencil.Proofs.Markup.Faults
set_option autoImplicit false

/-!
# Where a compile error points

Blocks that do not match are reported at the directive that does not fit, or at the one that began a
block without an end. So every compile error of a source points at one of its slots. Main statements:
`Blocks.spans_step`, `exists_span_of_assemble_error` and `Template.compile_error_place`.
-/

namespace Stencil

open Text Markup

def Block.span : Block → Span
  | .chain _ _ _ span | .loop _ _ _ _ span => span

def Block.directive : Block → Directive
  | .chain .. => .ifStart
  | .loop .. => .forStart

namespace Blocks

/-- Where the open blocks began, the innermost first. -/
def spans (b : Blocks) : List Span := b.stack.map Block.span

variable {b c : Blocks} {p : Piece} {x : CompileError}

@[simp] theorem spans_add (b : Blocks) (i : Instruction) : (b.add i).spans = b.spans := by
  obtain ⟨root, stack⟩ := b
  match stack with
  | [] => rfl
  | .chain .. :: _ => rfl
  | .loop .. :: _ => rfl

theorem spans_nextArm {d : Directive} {again : Imbalance} {guard : Option Expression} {span : Span}
    (h : b.nextArm d again guard span = .ok c) : c.spans = b.spans := by
  unfold nextArm at h
  split at h
  · next hs =>
    cases h
    simp [spans, hs, Block.span]
  · cases h
  · cases h

theorem spans_endIf {span : Span} (h : b.endIf span = .ok c) : c.spans = b.spans.tail := by
  unfold endIf at h
  split at h
  · next hs =>
    cases h
    rw [spans_add, spans, spans, hs]
    rfl
  · cases h
  · cases h

theorem spans_endFor {span : Span} (h : b.endFor span = .ok c) : c.spans = b.spans.tail := by
  unfold endFor at h
  split at h
  · next hs =>
    cases h
    rw [spans_add, spans, spans, hs]
    rfl
  · cases h
  · cases h

theorem spans_eq_of_step (h : b.step p = .ok c) : c.spans = b.spans ∨ c.spans = b.spans.tail ∨
    p.token.directive?.isSome ∧ c.spans = p.span :: b.spans := by
  obtain ⟨token, span⟩ := p
  cases token with
  | literal | print | embed =>
    cases h
    exact .inl (spans_add ..)
  | ifStart | forStart =>
    cases h
    exact .inr (.inr ⟨rfl, rfl⟩)
  | elseIf | elsePart => exact .inl (spans_nextArm h)
  | endIf => exact .inr (.inl (spans_endIf h))
  | endFor => exact .inr (.inl (spans_endFor h))

theorem spans_step (h : b.step p = .ok c) :
    ∀ s ∈ c.spans, s ∈ b.spans ∨ p.token.directive?.isSome ∧ s = p.span := by
  intro s hs
  rcases spans_eq_of_step h with hc | hc | ⟨hdir, hc⟩
  · exact .inl (hc ▸ hs)
  · exact .inl (List.mem_of_mem_tail (hc ▸ hs))
  · rw [hc] at hs
    exact (List.mem_cons.1 hs).symm.imp_right fun hs => ⟨hdir, hs⟩

theorem exists_unbalanced_of_step (h : b.step p = .error x) :
    ∃ d i, p.token.directive? = some d ∧ x = .unbalanced d i p.span := by
  obtain ⟨token, span⟩ := p
  cases token with
  | literal | print | embed | ifStart | forStart => cases h
  | elseIf | elsePart | endIf | endFor =>
    simp only [step, nextArm, endIf, endFor] at h
    split at h <;> cases h <;> exact ⟨_, _, rfl, rfl⟩

theorem exists_unbalanced_of_finish (h : b.finish = .error x) :
    ∃ k ks i, b.stack = k :: ks ∧ x = .unbalanced k.directive i k.span := by
  unfold finish at h
  split at h
  · cases h
  · next hs =>
    cases h
    exact ⟨_, _, _, hs, rfl⟩
  · next hs =>
    cases h
    exact ⟨_, _, _, hs, rfl⟩

theorem finish_error (h : b.finish = .error x) : ∃ s ∈ b.spans, x.span? = some s := by
  obtain ⟨k, ks, i, hs, rfl⟩ := exists_unbalanced_of_finish h
  exact ⟨k.span, by simp [spans, hs], rfl⟩

/-- The invariant of a run: every block that is open began at a directive of it or was open before. -/
theorem spans_run {ps : List Piece} (h : b.run ps = .ok c) :
    ∀ s ∈ c.spans, s ∈ b.spans ∨ ∃ p ∈ ps, p.token.directive?.isSome ∧ s = p.span := by
  induction ps generalizing b with
  | nil =>
    cases h
    exact fun s hs => .inl hs
  | cons p ps ih =>
    rw [run] at h
    split at h
    · next d hd =>
      intro s hs
      obtain hs | ⟨q, hq, hs⟩ := ih h s hs
      · exact (spans_step hd s hs).imp_right fun hs => ⟨p, List.mem_cons_self, hs⟩
      · exact .inr ⟨q, List.mem_cons_of_mem p hq, hs⟩
    · cases h

theorem exists_of_run_error {ps : List Piece} (h : b.run ps = .error x) :
    ∃ before p after c, ps = before ++ p :: after ∧ b.run before = .ok c ∧ c.step p = .error x := by
  induction ps generalizing b with
  | nil => cases h
  | cons p ps ih =>
    rw [run] at h
    split at h
    · next hs =>
      obtain ⟨before, q, after, c, rfl, hrun, hq⟩ := ih h
      exact ⟨p :: before, q, after, c, rfl, by rw [run, hs]; exact hrun, hq⟩
    · next hs =>
      cases h
      exact ⟨[], p, ps, b, rfl, rfl, hs⟩

theorem run_error {ps : List Piece} (h : b.run ps = .error x) :
    ∃ p ∈ ps, p.token.directive?.isSome ∧ x.span? = some p.span := by
  obtain ⟨before, p, after, c, rfl, -, hp⟩ := exists_of_run_error h
  obtain ⟨d, i, hd, rfl⟩ := exists_unbalanced_of_step hp
  exact ⟨p, List.mem_append_right before List.mem_cons_self, Option.isSome_of_eq_some hd, rfl⟩

end Blocks

theorem exists_span_of_assemble_error {ps : List Piece} {x : CompileError}
    (h : assemble ps = .error x) :
    ∃ p ∈ ps, p.token.directive?.isSome ∧ x.span? = some p.span := by
  unfold assemble at h
  cases hr : Blocks.empty.run ps with
  | error y =>
    rw [hr] at h
    cases h
    exact Blocks.run_error hr
  | ok b =>
    rw [hr] at h
    obtain ⟨s, hs, hx⟩ := Blocks.finish_error h
    obtain hs | ⟨p, hp, hdir, rfl⟩ := Blocks.spans_run hr s hs
    · cases hs
    · exact ⟨p, hp, hdir, hx⟩

theorem Markup.opens_of_mem_pieces {source : String} {ps : List Piece} (h : pieces source = .ok ps)
    {p : Piece} (hp : p ∈ ps) (hdir : p.token.directive?.isSome) : p.span.Opens source.toList := by
  have htiles : Tiles 0 ([] ++ source.toList) ps :=
    Cut.tiles (cut_iff.1 h) endsPlain_nil rfl rfl
  obtain ⟨before, behind, rfl⟩ := List.append_of_mem hp
  obtain ⟨-, text, hcovers, hshows⟩ := @Tiles.shows source.toList _ [] htiles before behind p rfl
  rw [Piece.Shows] at hshows
  split at hshows
  · next ht =>
    rw [ht] at hdir
    cases hdir
  · exact ⟨text, hcovers, hshows.1⟩

namespace Template

variable {name : Option String} {source : String} {x : CompileError}

/-- A source does not compile if its slots cannot be read, or else its blocks do not match. -/
theorem compile_eq_error_iff : compile name source = .error x ↔
    pieces source = .error x ∨ ∃ ps, pieces source = .ok ps ∧ assemble ps = .error x := by
  unfold compile
  cases pieces source with
  | error y => simp [bind, Except.bind]
  | ok ps => cases ha : assemble ps <;> simp [ha, bind, Except.bind, pure, Except.pure]

theorem exists_span_of_compile_error (h : compile name source = .error x) :
    ∃ s, x.span? = some s ∧ (s.Opens source.toList ∨
      x = .expectedClose s ∧ s.Splits source.toList) := by
  obtain hp | ⟨ps, hp, ha⟩ := compile_eq_error_iff.1 h
  · exact exists_span_of_pieces_error hp
  · obtain ⟨p, hmem, hdir, hx⟩ := exists_span_of_assemble_error ha
    exact ⟨p.span, hx, .inl (opens_of_mem_pieces hp hmem hdir)⟩

/-- Every compile error of a source has a span that is not empty and lies within the source. It covers
a text that begins with an opener. The only exception is a slot where a longer character stands in place
of the closing brace: its span begins with the opener too, but ends inside that character. -/
theorem compile_error_place (h : compile name source = .error x) :
    ∃ s, x.span? = some s ∧ s.start < s.stop ∧ s.stop ≤ byteLength source.toList ∧
      (s.Opens source.toList ∨
        x = .expectedClose s ∧ s.Splits source.toList ∧ ¬ Boundary source.toList s.stop) := by
  obtain ⟨s, hx, hopens | ⟨hclose, hsplits⟩⟩ := exists_span_of_compile_error h
  · exact ⟨s, hx, hopens.bounds.1, hopens.bounds.2, .inl hopens⟩
  · exact ⟨s, hx, hsplits.bounds.1, hsplits.bounds.2, .inr ⟨hclose, hsplits, hsplits.not_boundary⟩⟩

theorem open_chain_placed :
    let source := "é$\x7bif x\x7dé"
    compile none source = .error (.unbalanced .ifStart .missingEndIf ⟨2, 9⟩) ∧
      (⟨2, 9⟩ : Span).Opens source.toList := by
  intro source
  have hpieces : pieces source = .ok [⟨.literal "é", 0, 2⟩, ⟨.ifStart ⟨"x", 7⟩, 2, 9⟩,
      ⟨.literal "é", 9, 11⟩] := by decide +kernel
  have h : compile none source = .error (.unbalanced .ifStart .missingEndIf ⟨2, 9⟩) := by
    rw [compile, hpieces]
    rfl
  obtain ⟨s, hs, -, -, hopens | ⟨hclose, -⟩⟩ := compile_error_place h
  · cases hs
    exact ⟨h, hopens⟩
  · cases hclose

/-- The span ends behind the first byte of a character that has two. -/
theorem missed_brace_splits :
    let source := "$\x7b_\x60x\x60 é\x7d"
    compile none source = .error (.expectedClose ⟨0, 8⟩) ∧ ¬ Boundary source.toList 8 := by
  intro source
  have hpieces : pieces source = .error (.expectedClose ⟨0, 8⟩) := by decide +kernel
  refine ⟨?_, Span.Splits.not_boundary (s := ⟨0, 8⟩) ?_⟩
  · rw [compile, hpieces]
    rfl
  · exact ⟨[], "$\x7b_\x60x\x60 ".toList, 'é', ['\x7d'], by decide, by decide, by decide, by decide⟩

end Template

end Stencil
