import Stencil.Proofs.Engine.Catalogue
import Stencil.Proofs.Eval.Congruence
set_option autoImplicit false

namespace Stencil

inductive Call where
  | compile (name : String)
  | compileSource (source : String)
  | render (name : String) (context : Value)
  | renderSource (source : String) (context : Value)

/-- What comes back; of a compiled template its content only. -/
inductive Answer where
  | template (result : Except CompileError Template)
  | text (result : Except Halt String)

namespace Engine

def answer (e : Engine) : Call → Answer × Engine
  | .compile name =>
    let (result, e) := e.compile name
    (.template (result.map Compiled.template), e)
  | .compileSource source => (.template (compileSource source), e)
  | .render name context =>
    let (result, e) := e.render name context
    (.text result, e)
  | .renderSource source context =>
    let (result, e) := e.renderSource source context
    (.text result, e)

def answers (e : Engine) : List Call → List Answer
  | [] => []
  | call :: calls => (e.answer call).1 :: (e.answer call).2.answers calls

end Engine

/-- The names whose templates a call compiles or finds compiled: the one that it asks for, and those
of the includes that its render comes to. -/
def Call.loads (e : Engine) : Call → List String
  | .compile name => if (e.compile name).1.isOk then [name] else []
  | .compileSource _ => []
  | .render name context =>
    match e.compile name with
    | (.ok c, e) => name :: e.loads c.template context
    | (.error _, _) => []
  | .renderSource source context =>
    match Engine.compileSource source with
    | .ok t => e.loads t context
    | .error _ => []

namespace Engine

def outcome (e : Engine) (context : Value) : Except CompileError Template → Except Halt String
  | .ok t => ((e.reference.render e.world.levels t context).exec ()).1
  | .error cause => .error (.error (.compile cause))

theorem Filled.outcome {e e' : Engine} {names : List String} (h : e.Filled names e')
    (context : Value) (result : Except CompileError Template) :
    e'.outcome context result = e.outcome context result := by
  simp only [Engine.outcome, reference, h.effective, h.world]

theorem render_filled (e : Engine) (name : String) (context : Value) :
    (e.render name context).1 = e.outcome context (e.effective name) ∧
      e.Filled ((Call.render name context).loads e) (e.render name context).2 := by
  obtain ⟨htemplate, hfilled⟩ := e.compile_filled name
  rcases hc : e.compile name with ⟨cause | c, e'⟩
  · simp only [hc, Except.map] at htemplate
    simp only [hc] at hfilled
    simp only [render, Call.loads, hc, ← htemplate, outcome]
    exact ⟨trivial, hfilled⟩
  · simp only [hc, Except.map] at htemplate
    simp only [hc] at hfilled
    obtain ⟨houtcome, hfilled'⟩ := e'.renderTemplate_filled c.template context
    simp only [render, Call.loads, hc, ← htemplate]
    refine ⟨?_, hfilled.trans hfilled'⟩
    rw [houtcome, ← hfilled.outcome]
    rfl

theorem renderSource_filled (e : Engine) (source : String) (context : Value) :
    (e.renderSource source context).1 = e.outcome context (compileSource source) ∧
      e.Filled ((Call.renderSource source context).loads e) (e.renderSource source context).2 := by
  cases hc : compileSource source with
  | error cause =>
    simp only [renderSource, Call.loads, hc, outcome]
    exact ⟨trivial, e.filled_nil⟩
  | ok t =>
    simp only [renderSource, Call.loads, hc]
    exact e.renderTemplate_filled t context

theorem answer_filled (e : Engine) (call : Call) : e.Filled (call.loads e) (e.answer call).2 := by
  cases call with
  | compile name => exact (e.compile_filled name).2
  | compileSource source => exact e.filled_nil
  | render name context => exact (e.render_filled name context).2
  | renderSource source context => exact (e.renderSource_filled source context).2

/-- No call can tell the two engines apart. -/
structure Alike (e e' : Engine) : Prop where
  effective : ∀ name, e.effective name = e'.effective name
  functions : ∀ name, Entries.get? name e.world.functions = Entries.get? name e'.world.functions
  settings : e.world.settings = e'.world.settings
  room : e.world.room = e'.world.room

namespace Alike

variable {e e' : Engine}

theorem outcome (h : e.Alike e') (context : Value) (result : Except CompileError Template) :
    e.outcome context result = e'.outcome context result := by
  have hcatalogue : e.effective = e'.effective := funext h.effective
  have hlevels : e.world.levels = e'.world.levels := by simp only [World.levels, h.settings, h.room]
  have hsame : e.reference.setting.Same e'.reference.setting :=
    ⟨congrArg Settings.undefined h.settings, h.functions⟩
  have hhosts : (Simulation.exact fun (_ _ : Unit) => True).Hosts e.reference e'.reference := by
    refine ⟨fun name scope x => ?_, congrArg Settings.maxIncludeDepth h.settings, fun path => ?_⟩
    · have heval : x.eval name e.reference.setting scope =
          x.eval name e'.reference.setting scope := by
        simp only [Expression.eval, hsame.eval]
      rw [heval]
      exact Simulation.follows_ofEval _
    · simp only [reference, Catalogue.load, hcatalogue]
      cases e'.effective path with
      | ok t => exact Simulation.follows_pure t
      | error cause => exact Simulation.follows_fail _
  cases result with
  | error cause => rfl
  | ok t =>
    have hfollows := Simulation.follows_render hhosts e.world.levels t context () () trivial
    simp only [Engine.outcome, ← hlevels]
    exact (Simulation.answers_exact.1 hfollows).1

theorem answer (h : e.Alike e') (call : Call) : (e.answer call).1 = (e'.answer call).1 := by
  cases call with
  | compile name =>
    have hc : (e.compile name).1.map Compiled.template =
        (e'.compile name).1.map Compiled.template := by
      rw [(e.compile_filled name).1, (e'.compile_filled name).1, h.effective]
    simp only [Engine.answer, hc]
  | compileSource source => rfl
  | render name context =>
    have hr : (e.render name context).1 = (e'.render name context).1 := by
      rw [(e.render_filled name context).1, (e'.render_filled name context).1, h.effective,
        h.outcome]
    simp only [Engine.answer, hr]
  | renderSource source context =>
    have hr : (e.renderSource source context).1 = (e'.renderSource source context).1 := by
      rw [(e.renderSource_filled source context).1, (e'.renderSource_filled source context).1,
        h.outcome]
    simp only [Engine.answer, hr]

end Alike

theorem Filled.alike {e e' : Engine} {names : List String} (h : e.Filled names e') :
    e'.Alike e where
  effective name := congrFun h.effective name
  functions name := by rw [h.world]
  settings := by rw [h.world]
  room := by rw [h.world]

theorem answers_eq_map (e : Engine) (calls : List Call) :
    e.answers calls = calls.map fun call => (e.answer call).1 := by
  induction calls generalizing e with
  | nil => rfl
  | cons call calls ih =>
    have halike : (e.answer call).2.Alike e := (e.answer_filled call).alike
    simp only [answers, List.map_cons, ih, List.cons.injEq, true_and]
    exact List.map_congr_left fun call' _ => halike.answer call'

/-- A call leaves everything but the store as it is, keeps what is in the store and gives no name
another meaning; its answer depends on the meanings, the functions and the settings only. So a row
of calls gets the answers that each of them would get if it came first. -/
theorem answers_undisturbed :
    (∀ (e : Engine) (call : Call),
      (e.answer call).2.world = e.world ∧
      (∀ name c, e.store.find? name = some c → (e.answer call).2.store.find? name = some c) ∧
      ∀ name, (e.answer call).2.effective name = e.effective name) ∧
    (∀ (e e' : Engine) (call : Call), e.Alike e' → (e.answer call).1 = (e'.answer call).1) ∧
    ∀ (e : Engine) (calls : List Call),
      e.answers calls = calls.map fun call => (e.answer call).1 := by
  refine ⟨fun e call => ?_, fun e e' call h => h.answer call, answers_eq_map⟩
  have hfilled := e.answer_filled call
  exact ⟨hfilled.world, fun name c hc => hfilled.find? hc,
    fun name => congrFun hfilled.effective name⟩

/-- Two engines that have kept the same template of a name, which is registered with another text in
the one and no longer in the other. -/
theorem stale_template_undisturbed :
    let page : Template := ⟨some "page", [.literal "old", .embed "gone" none]⟩
    let e : Engine :=
      ⟨⟨⟨[("page", "new")]⟩, [], ⟨some 3, .strict⟩, 0⟩, ⟨[("page", ⟨page, 4⟩)], 5⟩⟩
    let e' : Engine := ⟨⟨⟨[]⟩, [], ⟨some 3, .strict⟩, 0⟩, ⟨[("page", ⟨page, 7⟩)], 8⟩⟩
    let call : Call := .render "page" (.object [])
    (e.answer call).2.store.find? "page" = some ⟨page, 4⟩ ∧
      (e.answer call).1 = (e'.answer call).1 ∧
      e.answers [.compile "gone", call] = [(e.answer (.compile "gone")).1, (e.answer call).1] := by
  intro page e e' call
  have halike : e.Alike e' := by
    refine ⟨fun name => ?_, fun name => rfl, rfl, rfl⟩
    by_cases h : "page" = name
    · subst h
      rfl
    · simp [effective, registry, Store.effective, Store.find?, Registry.compile, Registry.get?,
        Entries.get?, e, e', h]
  exact ⟨(answers_undisturbed.1 e call).2.1 "page" _ rfl,
    answers_undisturbed.2.1 e e' call halike, answers_undisturbed.2.2 e _⟩

end Engine

end Stencil
