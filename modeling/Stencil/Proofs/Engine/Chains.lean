import Stencil.Proofs.Engine.Printing
import Stencil.Proofs.Program.Chains
set_option autoImplicit false

namespace Stencil

open Markup

namespace Renderer

variable {σ : Type} (r : Renderer σ) (scope : Scope)

mutual

theorem run_unchained (scope : Scope) (i : Instruction) :
    r.run scope i.unchained = r.run scope i := by
  cases i with
  | literal text => rfl
  | print e => rfl
  | branch arms =>
    simp only [Instruction.unchained, run]
    exact runArms_unchainedAll scope arms
  | loop index value collection body =>
    have hround (p : Value × Value) := runAll_unchainedAll (scope.push ⟨index, p.1, value, p.2⟩) body
    simp only [Instruction.unchained, run, hround]
  | embed path context => rfl

theorem runAll_unchainedAll (scope : Scope) (is : List Instruction) :
    r.runAll scope (Instruction.unchainedAll is) = r.runAll scope is := by
  cases is with
  | nil => rfl
  | cons i is =>
    simp only [Instruction.unchainedAll, runAll, run_unchained scope i, runAll_unchainedAll scope is]

theorem runArms_unchainedAll (scope : Scope) (arms : List Arm) :
    r.runArms scope (Arm.unchainedAll arms) = r.runArms scope arms := by
  cases arms with
  | nil => rfl
  | cons arm arms =>
    obtain ⟨guard, body⟩ := arm
    cases guard with
    | none => exact runAll_unchainedAll scope body
    | some guard =>
      simp only [Arm.unchainedAll, runArms, runAll_unchainedAll scope body,
        runArms_unchainedRest scope arms]

/-- The chain within the last part is run where the arms would be tried. -/
theorem runArms_unchainedRest (scope : Scope) (arms : List Arm) :
    r.runArms scope (Arm.unchainedRest arms) = r.runArms scope arms := by
  cases arms with
  | nil => rfl
  | cons arm arms =>
    obtain ⟨guard, body⟩ := arm
    cases guard with
    | none => exact runAll_unchainedAll scope body
    | some guard =>
      simp only [Arm.unchainedRest, runArms, runAll_one, run, runAll_unchainedAll scope body,
        runArms_unchainedRest scope arms]

end

def Skips (a : Arm) : Prop :=
  ∃ guard v, a.guard = some guard ∧ guard.eval r.name r.setting scope = .ok v ∧ v.isTruthy = false

def Takes (a : Arm) : Prop :=
  ∀ guard ∈ a.guard, ∃ v, guard.eval r.name r.setting scope = .ok v ∧ v.isTruthy = true

variable {r scope}

theorem runArms_skipped {before : List Arm} (h : ∀ a ∈ before, r.Skips scope a) (after : List Arm) :
    r.runArms scope (before ++ after) = r.runArms scope after := by
  induction before with
  | nil => rfl
  | cons a before ih =>
    obtain ⟨hskips, hrest⟩ := List.forall_mem_cons.1 h
    obtain ⟨_, body⟩ := a
    obtain ⟨guard, v, rfl, hv, hfalsy⟩ := hskips
    simp only [List.cons_append, runArms, eval, hv, Run.ofEval, pure_bind, hfalsy, ih hrest]
    rfl

theorem runArms_taken {a : Arm} (h : r.Takes scope a) (after : List Arm) :
    r.runArms scope (a :: after) = r.runAll scope a.body := by
  obtain ⟨guard, body⟩ := a
  cases guard with
  | none => rfl
  | some guard =>
    obtain ⟨v, hv, htruthy⟩ := h guard rfl
    simp only [runArms, eval, hv, Run.ofEval, pure_bind, htruthy]
    rfl

theorem runArms_failed {guard : Expression} {err : RenderError}
    (h : guard.eval r.name r.setting scope = .error err) (body : List Instruction)
    (after : List Arm) :
    r.runArms scope (.mk (some guard) body :: after) = Run.fail (.render err) := by
  simp only [runArms, eval, h, Run.ofEval]
  rfl

end Renderer

namespace Engine

theorem renderTemplate_unchained (e : Engine) (name : Option String) (is : List Instruction)
    (context : Value) :
    e.renderTemplate ⟨name, Instruction.unchainedAll is⟩ context =
      e.renderTemplate ⟨name, is⟩ context := by
  unfold renderTemplate World.render Host.render Template.renderWith
  cases context with
  | object fields => simp only [Renderer.runAll_unchainedAll]
  | _ => rfl

/-- A row of tokens whose blocks match still does so with its chains written as choices between two,
and both trees render alike, with the same output or error, whatever the engine and the context are. A
chain runs the first arm that has no guard or one that holds, or nothing if there is none; it does not
come to the guards behind that arm, nor behind one that fails. -/
theorem chains_unchained :
    (∀ ps qs : List Piece, WellNested (ps.map Piece.token) →
      qs.map Piece.token = unchained (ps.map Piece.token) →
      (∀ q ∈ qs, q.token.directive? ≠ some .elseIf) ∧
      ∃ is js, assemble ps = .ok is ∧ assemble qs = .ok js ∧
        ∀ (e : Engine) (name : Option String) (context : Value),
          e.renderTemplate ⟨name, js⟩ context = e.renderTemplate ⟨name, is⟩ context) ∧
    ∀ (σ : Type) (r : Renderer σ) (scope : Scope) (before : List Arm),
      (∀ a ∈ before, r.Skips scope a) →
      r.run scope (.branch before) = pure "" ∧
      (∀ a after, r.Takes scope a →
        r.run scope (.branch (before ++ a :: after)) = r.runAll scope a.body) ∧
      ∀ guard body after err, guard.eval r.name r.setting scope = .error err →
        r.run scope (.branch (before ++ .mk (some guard) body :: after)) =
          Run.fail (.render err) := by
  refine ⟨fun ps qs h hqs => ?_, fun σ r scope before h => ⟨?_, fun a after ha => ?_,
    fun guard body after err herr => ?_⟩⟩
  · obtain ⟨is, hwf, htokens⟩ := h.exists_tree
    have his : assemble ps = .ok is := Blocks.assemble_tokensAll hwf htokens.symm
    obtain ⟨hjs, hnone⟩ := assemble_unchained his hqs
    exact ⟨hnone, is, _, his, hjs, fun e name context => e.renderTemplate_unchained name is context⟩
  · have hskipped := Renderer.runArms_skipped h []
    rwa [List.append_nil] at hskipped
  · exact (Renderer.runArms_skipped h _).trans (Renderer.runArms_taken ha after)
  · exact (Renderer.runArms_skipped h _).trans (Renderer.runArms_failed herr body after)

theorem second_arm_taken :
    let pieces (ts : List Token) : List Piece := ts.map fun t => ⟨t, 0, 0⟩
    let ts : List Token := [.ifStart ⟨"a", 5⟩, .literal "x", .elseIf ⟨"b", 17⟩,
      .forStart "i" "v" ⟨"xs", 31⟩, .ifStart ⟨"v", 40⟩, .literal "1", .elseIf ⟨"b", 50⟩,
      .literal "0", .endIf, .endFor, .elseIf ⟨"c", 80⟩, .elsePart, .literal "z", .endIf]
    let us : List Token := [.ifStart ⟨"a", 5⟩, .literal "x", .elsePart, .ifStart ⟨"b", 17⟩,
      .forStart "i" "v" ⟨"xs", 31⟩, .ifStart ⟨"v", 40⟩, .literal "1", .elsePart, .ifStart ⟨"b", 50⟩,
      .literal "0", .endIf, .endIf, .endFor, .elsePart, .ifStart ⟨"c", 80⟩, .elsePart,
      .literal "z", .endIf, .endIf, .endIf]
    let fields := [("a", .bool false), ("b", .bool true), ("xs", .array [.bool true, .null])]
    let guard (name : String) : Option Expression := some ⟨name, 0, .ok (.ident name)⟩
    let r : Renderer Store := ⟨none, empty.world.host.setting, empty.world.host.embedAt 0 1⟩
    let scope := Scope.ofContext fields
    WellNested ts ∧ unchained ts = us ∧
      (∃ is js, assemble (pieces ts) = .ok is ∧ assemble (pieces us) = .ok js ∧
        (empty.renderTemplate ⟨none, js⟩ (.object fields)).1 = .ok "10") ∧
      r.run scope (.branch [.mk (guard "a") [], .mk (guard "b") [.literal "y"], .mk (guard "c") []]) =
        r.runAll scope [.literal "y"] := by
  intro pieces ts us fields guard r scope
  have hmap (row : List Token) : (pieces row).map Piece.token = row := by
    simp [pieces, Function.comp_def]
  obtain ⟨is, his⟩ : ∃ is, assemble (pieces ts) = .ok is := ⟨_, rfl⟩
  have hts : WellNested ts := by
    obtain ⟨htokens, hwf⟩ := Blocks.assemble_ok his
    rw [hmap] at htokens
    exact htokens ▸ wellNested_tokensAll is hwf
  have hrendered : (empty.renderTemplate ⟨none, is⟩ (.object fields)).1 = .ok "10" := by
    cases his
    decide +kernel
  obtain ⟨hrows, hruns⟩ := chains_unchained
  obtain ⟨-, is', js, his', hjs, hrender⟩ :=
    hrows (pieces ts) (pieces us) (by rwa [hmap]) (by rw [hmap, hmap]; rfl)
  obtain rfl : is = is' := Except.ok.inj (his.symm.trans his')
  have hskips : r.Skips scope (.mk (guard "a") []) := ⟨_, .bool false, rfl, rfl, rfl⟩
  have htakes : r.Takes scope (.mk (guard "b") [.literal "y"]) := by
    rintro _ ⟨⟩
    exact ⟨.bool true, rfl, rfl⟩
  refine ⟨hts, rfl, ⟨is, js, his, hjs, by rw [hrender, hrendered]⟩, ?_⟩
  exact (hruns Store r scope [.mk (guard "a") []] (by simpa using hskips)).2.1 _ _ htakes

end Engine

end Stencil
