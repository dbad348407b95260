import Stencil.Proofs.Program.Nesting
set_option autoImplicit false

/-!
# Matching blocks is the inverse of writing out

What the open blocks have gathered, written out, is the row of tokens read so far, and each of them
would be a well-formed instruction if it ended now. Main statements: `Blocks.takes_step`, all that a
token can do, `Blocks.assemble_ok` and `Blocks.assemble_tokensAll`.
-/

namespace Stencil

open Markup

namespace Block

def closed : Block → Instruction
  | .chain arms guard body _ => .branch (arms ++ [.mk guard body])
  | .loop index value collection body _ => .loop index value collection body

def tokens : Block → List Token
  | .chain arms guard body _ => Arm.tokensAll true (arms ++ [.mk guard body])
  | .loop index value collection body _ =>
    .forStart index value collection.payload :: Instruction.tokensAll body

end Block

namespace Blocks

/-- The tokens that the open blocks have taken, the innermost block's last. -/
def stackTokens : List Block → List Token
  | [] => []
  | k :: ks => stackTokens ks ++ k.tokens

def tokens (b : Blocks) : List Token := Instruction.tokensAll b.root ++ stackTokens b.stack

def WellFormed (b : Blocks) : Prop :=
  Instruction.AllWellFormed b.root ∧ ∀ k ∈ b.stack, k.closed.WellFormed

theorem tokens_add (b : Blocks) (i : Instruction) : (b.add i).tokens = b.tokens ++ i.tokens := by
  obtain ⟨root, stack⟩ := b
  match stack with
  | [] => simp [add, tokens, stackTokens, Instruction.tokensAll]
  | .chain arms guard body span :: rest =>
    simp [add, tokens, stackTokens, Block.tokens, Arm.tokensAll_append_one, Instruction.tokensAll]
  | .loop index value collection body span :: rest =>
    simp [add, tokens, stackTokens, Block.tokens, Instruction.tokensAll]

theorem WellFormed.add {b : Blocks} (h : b.WellFormed) {i : Instruction} (hi : i.WellFormed) :
    (b.add i).WellFormed := by
  obtain ⟨root, stack⟩ := b
  obtain ⟨hr, hs⟩ := h
  match stack with
  | [] =>
    refine ⟨?_, by simp [Blocks.add]⟩
    simpa [Blocks.add, Instruction.AllWellFormed] using ⟨hr, hi⟩
  | .chain arms guard body span :: rest =>
    obtain ⟨⟨hc, ha⟩, hrest⟩ := List.forall_mem_cons.1 hs
    refine ⟨hr, List.forall_mem_cons.2 ⟨⟨Arm.chained_append_body hc _, ?_⟩, hrest⟩⟩
    simp only [Arm.allWellFormed_append, Arm.AllWellFormed, Instruction.allWellFormed_append,
      Instruction.AllWellFormed] at ha ⊢
    exact ⟨ha.1, ha.2.1, ⟨ha.2.2.1, hi, trivial⟩, trivial⟩
  | .loop index value collection body span :: rest =>
    obtain ⟨⟨hc, hb⟩, hrest⟩ := List.forall_mem_cons.1 hs
    refine ⟨hr, List.forall_mem_cons.2 ⟨⟨hc, ?_⟩, hrest⟩⟩
    simpa [Instruction.AllWellFormed] using ⟨hb, hi⟩

/-- What taking a token can do: add an instruction, begin a block, go on to the next arm of the
innermost one, or end it. -/
inductive Takes (b : Blocks) (t : Token) : Blocks → Prop where
  | add {i : Instruction} : i.WellFormed → i.tokens = [t] → Takes b t (b.add i)
  | begin {k : Block} : k.closed.WellFormed → k.tokens = [t] → Takes b t ⟨b.root, k :: b.stack⟩
  | next {k l : Block} {rest : List Block} : b.stack = k :: rest →
    (k.closed.WellFormed → l.closed.WellFormed) → l.tokens = k.tokens ++ [t] →
    Takes b t ⟨b.root, l :: rest⟩
  | close {k : Block} {rest : List Block} : b.stack = k :: rest →
    k.closed.tokens = k.tokens ++ [t] → Takes b t (Blocks.add ⟨b.root, rest⟩ k.closed)

theorem takes_nextArm {b c : Blocks} {d : Directive} {again : Imbalance}
    {guard : Option Expression} {span : Span} (hg : ∀ e ∈ guard, e.Faithful)
    (h : b.nextArm d again guard span = .ok c) : Takes b (Arm.header false guard) c := by
  unfold nextArm at h
  split at h
  · next arms g body at_ rest hs =>
    cases h
    refine .next hs (fun hk => ⟨?_, ?_⟩) ?_
    · exact (Arm.chained_append_two arms _ _).2 ⟨hk.1, rfl⟩
    · rw [Arm.allWellFormed_append]
      exact ⟨hk.2, hg, trivial, trivial⟩
    · have hn : (arms ++ [Arm.mk (some g) body]).isEmpty = false := by simp
      rw [Block.tokens, Arm.tokensAll_append_one, hn]
      rfl
  · cases h
  · cases h

theorem takes_endIf {b c : Blocks} {span : Span} (h : b.endIf span = .ok c) :
    Takes b .endIf c := by
  unfold endIf at h
  split at h
  · next hs => cases h; exact .close hs rfl
  · cases h
  · cases h

theorem takes_endFor {b c : Blocks} {span : Span} (h : b.endFor span = .ok c) :
    Takes b .endFor c := by
  unfold endFor at h
  split at h
  · next hs => cases h; exact .close hs rfl
  · cases h
  · cases h

theorem takes_step {b c : Blocks} {p : Piece} (h : b.step p = .ok c) : Takes b p.token c := by
  obtain ⟨token, span⟩ := p
  cases token with
  | literal text => cases h; exact .add trivial rfl
  | print e => cases h; exact .add rfl rfl
  | embed path context =>
    cases h
    cases context <;> exact .add (by simp [Instruction.WellFormed]) rfl
  | ifStart guard =>
    cases h
    refine .begin ⟨Arm.chained_one _ _, ?_⟩ rfl
    simp [Arm.AllWellFormed, Instruction.AllWellFormed]
  | elseIf guard => exact takes_nextArm (by simp) h
  | elsePart => exact takes_nextArm (by simp) h
  | endIf => exact takes_endIf h
  | forStart index value collection => cases h; exact .begin ⟨rfl, trivial⟩ rfl
  | endFor => exact takes_endFor h

theorem WellFormed.takes {b c : Blocks} {t : Token} (h : b.WellFormed) (hc : Takes b t c) :
    c.WellFormed := by
  cases hc with
  | add hi _ => exact h.add hi
  | begin hk _ => exact ⟨h.1, List.forall_mem_cons.2 ⟨hk, h.2⟩⟩
  | next hs hk _ =>
    have hb := List.forall_mem_cons.1 (hs ▸ h.2)
    exact ⟨h.1, List.forall_mem_cons.2 ⟨hk hb.1, hb.2⟩⟩
  | @close k rest hs _ =>
    have hb := List.forall_mem_cons.1 (hs ▸ h.2)
    have hr : WellFormed ⟨b.root, rest⟩ := ⟨h.1, hb.2⟩
    exact hr.add hb.1

theorem tokens_takes {b c : Blocks} {t : Token} (h : Takes b t c) : c.tokens = b.tokens ++ [t] := by
  cases h with
  | add _ hi => rw [tokens_add, hi]
  | begin _ hk => simp [tokens, stackTokens, hk]
  | next hs _ hk => simp [tokens, stackTokens, hs, hk]
  | close hs hk =>
    rw [tokens_add, hk]
    simp [tokens, stackTokens, hs]

/-- The invariant of a run: what the blocks hold is what they have been given. -/
theorem tokens_run {b c : Blocks} {ps : List Piece} (h : b.run ps = .ok c) :
    c.tokens = b.tokens ++ ps.map Piece.token := by
  induction ps generalizing b with
  | nil => cases h; simp
  | cons p ps ih =>
    simp only [run] at h
    split at h
    · next d hd => simp [ih h, tokens_takes (takes_step hd)]
    · cases h

theorem WellFormed.run {b c : Blocks} (hb : b.WellFormed) {ps : List Piece}
    (h : b.run ps = .ok c) : c.WellFormed := by
  induction ps generalizing b with
  | nil => cases h; exact hb
  | cons p ps ih =>
    simp only [Blocks.run] at h
    split at h
    · next d hd => exact ih (hb.takes (takes_step hd)) h
    · cases h

theorem empty_wellFormed : empty.WellFormed := ⟨trivial, by simp [empty]⟩

theorem finish_ok {b : Blocks} {is : List Instruction} (h : b.finish = .ok is) :
    b = ⟨is, []⟩ := by
  obtain ⟨root, stack⟩ := b
  unfold finish at h
  split at h
  · next hs =>
    cases h
    cases hs
    rfl
  · cases h
  · cases h

def addAll (b : Blocks) (is : List Instruction) : Blocks := is.foldl add b

theorem addAll_root (root is : List Instruction) :
    addAll ⟨root, []⟩ is = ⟨root ++ is, []⟩ := by
  induction is generalizing root with
  | nil => simp [addAll]
  | cons i is ih => simpa [addAll, add] using ih (root ++ [i])

theorem addAll_chain (root : List Instruction) (arms : List Arm) (guard : Option Expression)
    (body : List Instruction) (span : Span) (rest : List Block) (is : List Instruction) :
    addAll ⟨root, .chain arms guard body span :: rest⟩ is =
      ⟨root, .chain arms guard (body ++ is) span :: rest⟩ := by
  induction is generalizing body with
  | nil => simp [addAll]
  | cons i is ih => simpa [addAll, add] using ih (body ++ [i])

theorem addAll_loop (root : List Instruction) (index value : String) (collection : Expression)
    (body : List Instruction) (span : Span) (rest : List Block) (is : List Instruction) :
    addAll ⟨root, .loop index value collection body span :: rest⟩ is =
      ⟨root, .loop index value collection (body ++ is) span :: rest⟩ := by
  induction is generalizing body with
  | nil => simp [addAll]
  | cons i is ih => simpa [addAll, add] using ih (body ++ [i])

theorem pieces_of_arm {first : Bool} {guard : Option Expression} {body : List Instruction}
    {arms : List Arm} {us : List Token} {ps : List Piece}
    (h : ps.map Piece.token = Arm.tokensAll first (.mk guard body :: arms) ++ us) :
    ∃ p qs rs, ps = p :: (qs ++ rs) ∧ p.token = Arm.header first guard ∧
      qs.map Piece.token = Instruction.tokensAll body ∧
      rs.map Piece.token = Arm.tokensAll false arms ++ us := by
  rw [Arm.tokensAll, List.cons_append, List.append_assoc] at h
  obtain ⟨p, ps, rfl, hp, h⟩ := List.map_eq_cons_iff.1 h
  obtain ⟨qs, rs, rfl, hq, hr⟩ := List.map_eq_append_iff.1 h
  exact ⟨p, qs, rs, rfl, hp, hq, hr⟩

mutual

theorem run_tokens : ∀ (i : Instruction), i.WellFormed → ∀ (b : Blocks) {ps : List Piece},
    ps.map Piece.token = i.tokens → b.run ps = .ok (b.add i)
  | .literal text, _, b, ps, hp => by
    obtain ⟨p, rfl, ht⟩ := List.map_eq_singleton_iff.1 hp
    simp [run, step, ht]
  | .print e, h, b, ps, hp => by
    obtain ⟨p, rfl, ht⟩ := List.map_eq_singleton_iff.1 hp
    have he : Expression.ofPayload e.payload = e := h
    simp [run, step, ht, he]
  | .embed path none, _, b, ps, hp => by
    obtain ⟨p, rfl, ht⟩ := List.map_eq_singleton_iff.1 hp
    simp [run, step, ht]
  | .embed path (some e), h, b, ps, hp => by
    obtain ⟨p, rfl, ht⟩ := List.map_eq_singleton_iff.1 hp
    have he : Expression.ofPayload e.payload = e := h e rfl
    simp [run, step, ht, he]
  | .branch [], h, _, _, _ => by simp [Instruction.WellFormed, Arm.Chained] at h
  | .branch (.mk none body :: arms), h, _, _, _ => by
    simp [Instruction.WellFormed, Arm.Chained, Arm.guard] at h
  | .branch (.mk (some guard) body :: arms), ⟨⟨_, hd⟩, hg, hb, ha⟩, b, ps, hp => by
    obtain ⟨p, qs, rs, rfl, ht, hq, hr⟩ := pieces_of_arm hp
    have he : Expression.ofPayload guard.payload = guard := hg guard rfl
    have hs : b.step p = .ok ⟨b.root, .chain [] (some guard) [] p.span :: b.stack⟩ := by
      simp [step, ht, Arm.header, he]
    simp only [run, hs, run_append, run_tokensAll body hb _ hq, addAll_chain]
    exact run_arms arms ha (fun a m => hd a (Arm.dropLast_subset_cons _ arms m)) _ _ _ _ _ _ hr
  | .loop index value collection body, ⟨hc, hb⟩, b, ps, hp => by
    obtain ⟨p, qs, rfl, ht, hq⟩ := List.map_eq_cons_iff.1 hp
    obtain ⟨rs, us, rfl, hr, hu⟩ := List.map_eq_append_iff.1 hq
    obtain ⟨q, rfl, hl⟩ := List.map_eq_singleton_iff.1 hu
    have he : Expression.ofPayload collection.payload = collection := hc
    have hs : b.step p = .ok ⟨b.root, .loop index value collection [] p.span :: b.stack⟩ := by
      simp [step, ht, he]
    simp only [run, hs, run_append, run_tokensAll body hb _ hr, addAll_loop]
    simp [Except.bind, step, hl, endFor]

/-- The tokens of a tree are taken from every state, and its instructions are what they add. -/
theorem run_tokensAll : ∀ (is : List Instruction), Instruction.AllWellFormed is →
    ∀ (b : Blocks) {ps : List Piece}, ps.map Piece.token = Instruction.tokensAll is →
      b.run ps = .ok (b.addAll is)
  | [], _, b, ps, hp => by
    obtain rfl := List.map_eq_nil_iff.1 hp
    rfl
  | i :: is, h, b, ps, hp => by
    obtain ⟨qs, rs, rfl, hq, hr⟩ := List.map_eq_append_iff.1 hp
    rw [run_append, run_tokens i h.1 b hq]
    exact run_tokensAll is h.2 _ hr

theorem run_arms : ∀ (arms : List Arm), Arm.AllWellFormed arms →
    (∀ a ∈ arms.dropLast, a.guard.isSome) → ∀ (root : List Instruction) (done : List Arm)
      (guard : Expression) (body : List Instruction) (span : Span) (rest : List Block)
      {ps : List Piece}, ps.map Piece.token = Arm.tokensAll false arms ++ [.endIf] →
      run ⟨root, .chain done (some guard) body span :: rest⟩ ps =
        .ok (add ⟨root, rest⟩ (.branch (done ++ .mk (some guard) body :: arms)))
  | [], _, _, root, done, guard, body, span, rest, ps, hp => by
    obtain ⟨p, rfl, ht⟩ := List.map_eq_singleton_iff.1 hp
    simp [run, step, ht, endIf]
  | [.mk none last], ⟨_, hb, _⟩, _, root, done, guard, body, span, rest, ps, hp => by
    obtain ⟨p, qs, rs, rfl, ht, hq, hr⟩ := pieces_of_arm hp
    obtain ⟨q, rfl, hl⟩ := List.map_eq_singleton_iff.1 hr
    simp only [run, step, ht, Arm.header, nextArm, run_append, run_tokensAll last hb _ hq,
      addAll_chain]
    simp [Except.bind, hl, endIf]
  | .mk none last :: a :: arms, _, hd, _, _, _, _, _, _, _, _ => by simp [Arm.guard] at hd
  | .mk (some next) last :: arms, ⟨hg, hb, ha⟩, hd, root, done, guard, body, span, rest, ps, hp => by
    obtain ⟨p, qs, rs, rfl, ht, hq, hr⟩ := pieces_of_arm hp
    have he : Expression.ofPayload next.payload = next := hg next rfl
    have hs : step ⟨root, .chain done (some guard) body span :: rest⟩ p =
        .ok ⟨root, .chain (done ++ [.mk (some guard) body]) (some next) [] span :: rest⟩ := by
      simp [step, ht, Arm.header, nextArm, he]
    have h := run_arms arms ha (fun a m => hd a (Arm.dropLast_subset_cons _ arms m)) root
      (done ++ [.mk (some guard) body]) next last span rest hr
    simp only [run, hs, run_append, run_tokensAll last hb _ hq, addAll_chain, Except.bind]
    simpa using h

end

theorem assemble_ok {ps : List Piece} {is : List Instruction} (h : assemble ps = .ok is) :
    Instruction.tokensAll is = ps.map Piece.token ∧ Instruction.AllWellFormed is := by
  unfold assemble at h
  cases hr : empty.run ps with
  | error e => simp [hr, Except.bind] at h
  | ok b =>
    rw [hr] at h
    obtain rfl := finish_ok h
    have ht := tokens_run hr
    exact ⟨by simpa [tokens, stackTokens, empty, Instruction.tokensAll] using ht,
      (empty_wellFormed.run hr).1⟩

theorem assemble_tokensAll {is : List Instruction} (h : Instruction.AllWellFormed is)
    {ps : List Piece} (hp : ps.map Piece.token = Instruction.tokensAll is) :
    assemble ps = .ok is := by
  rw [assemble, run_tokensAll is h empty hp, empty, addAll_root]
  rfl

end Blocks

/-- Matching the blocks of a row of tokens succeeds if and only if they are well nested. The tree has
exactly the tokens of the row, and every well-formed tree comes back from its own tokens, wherever
they stand. -/
theorem assemble_inverts_tokensAll :
    (∀ ps : List Piece, (∃ is, assemble ps = .ok is) ↔ WellNested (ps.map Piece.token)) ∧
    (∀ (ps : List Piece) (is : List Instruction), assemble ps = .ok is →
      Instruction.tokensAll is = ps.map Piece.token ∧ Instruction.AllWellFormed is) ∧
    (∀ (is : List Instruction) (ps : List Piece), Instruction.AllWellFormed is →
      ps.map Piece.token = Instruction.tokensAll is → assemble ps = .ok is) := by
  refine ⟨fun ps => ⟨?_, ?_⟩, fun ps is h => Blocks.assemble_ok h,
    fun is ps h hp => Blocks.assemble_tokensAll h hp⟩
  · rintro ⟨is, h⟩
    obtain ⟨ht, hw⟩ := Blocks.assemble_ok h
    exact ht ▸ wellNested_tokensAll is hw
  · intro h
    obtain ⟨is, hw, ht⟩ := h.exists_tree
    exact ⟨is, Blocks.assemble_tokensAll hw ht.symm⟩

theorem assemble_chain_around_loop :
    assemble [⟨.ifStart ⟨"a", 5⟩, ⟨0, 7⟩⟩, ⟨.literal "x", ⟨7, 8⟩⟩, ⟨.elsePart, ⟨8, 15⟩⟩,
        ⟨.forStart "i" "v" ⟨"b", 29⟩, ⟨15, 31⟩⟩, ⟨.print ⟨"v", 33⟩, ⟨31, 35⟩⟩, ⟨.endFor, ⟨35, 44⟩⟩,
        ⟨.endIf, ⟨44, 52⟩⟩] =
      .ok [.branch [.mk (some (.ofPayload ⟨"a", 5⟩)) [.literal "x"],
        .mk none [.loop "i" "v" (.ofPayload ⟨"b", 29⟩) [.print (.ofPayload ⟨"v", 33⟩)]]]] :=
  assemble_inverts_tokensAll.2.2 _ _
    ⟨⟨⟨⟨_, rfl, rfl⟩, by simp [Arm.guard]⟩, by simp, ⟨trivial, trivial⟩, by simp,
      ⟨⟨rfl, rfl, trivial⟩, trivial⟩, trivial⟩, trivial⟩ rfl

end Stencil
