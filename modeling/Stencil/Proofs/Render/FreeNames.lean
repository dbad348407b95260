import Stencil.Engine.Basic
import Stencil.Proofs.Eval.Names
set_option autoImplicit false

namespace Stencil

/-- An expression that cannot be read has no names: its evaluation fails in every scope. -/
def Expression.names (e : Expression) : List String :=
  match e.parsed with
  | .ok x => x.names
  | .error _ => []

mutual

def Instruction.freeNames : Instruction → List String
  | .literal _ => []
  | .print e => e.names
  | .branch arms => Arm.freeNamesAll arms
  | .loop index value collection body =>
    collection.names ++
      (Instruction.freeNamesAll body).filter fun n => n ≠ index ∧ n ≠ value
  | .embed _ none => []
  | .embed _ (some context) => context.names

def Instruction.freeNamesAll : List Instruction → List String
  | [] => []
  | i :: is => i.freeNames ++ Instruction.freeNamesAll is

def Arm.freeNamesAll : List Arm → List String
  | [] => []
  | .mk none body :: arms => Instruction.freeNamesAll body ++ Arm.freeNamesAll arms
  | .mk (some guard) body :: arms =>
    guard.names ++ (Instruction.freeNamesAll body ++ Arm.freeNamesAll arms)

end

def Template.freeNames (t : Template) : List String := Instruction.freeNamesAll t.instructions

theorem Expression.eval_agrees {st : Setting} {s s' : Scope} (e : Expression)
    (template : Option String) (h : st.Agrees s s' e.names) :
    e.eval template st s = e.eval template st s' := by
  unfold Expression.eval Expression.tree
  cases hp : e.parsed with
  | error x => rfl
  | ok x =>
    simp only [Expression.names, hp] at h
    exact x.eval_agrees h

namespace Renderer

variable {σ : Type} {r : Renderer σ}

theorem eval_agrees {s s' : Scope} (e : Expression) (h : r.setting.Agrees s s' e.names) :
    r.eval s e = r.eval s' e := by
  unfold Renderer.eval
  rw [e.eval_agrees r.name h]

mutual

theorem run_agrees {s s' : Scope} (i : Instruction) (h : r.setting.Agrees s s' i.freeNames) :
    r.run s i = r.run s' i := by
  cases i with
  | literal text => rfl
  | print e =>
    rw [Instruction.freeNames] at h
    simp only [run, eval_agrees e h]
  | branch arms =>
    rw [Instruction.freeNames] at h
    exact runArms_agrees arms h
  | loop index value collection body =>
    simp only [Instruction.freeNames, Setting.agrees_append] at h
    have hround (p : Value × Value) :
        r.runAll (s.push ⟨index, p.1, value, p.2⟩) body =
          r.runAll (s'.push ⟨index, p.1, value, p.2⟩) body :=
      runAll_agrees body (Setting.Agrees.push h.2)
    simp only [run, eval_agrees collection h.1, hround]
  | embed path context =>
    cases context with
    | none => rfl
    | some context =>
      rw [Instruction.freeNames] at h
      simp only [run, eval_agrees context h]

theorem runAll_agrees {s s' : Scope} (is : List Instruction)
    (h : r.setting.Agrees s s' (Instruction.freeNamesAll is)) : r.runAll s is = r.runAll s' is := by
  cases is with
  | nil => rfl
  | cons i is =>
    simp only [Instruction.freeNamesAll, Setting.agrees_append] at h
    simp only [runAll, run_agrees i h.1, runAll_agrees is h.2]

theorem runArms_agrees {s s' : Scope} (arms : List Arm)
    (h : r.setting.Agrees s s' (Arm.freeNamesAll arms)) : r.runArms s arms = r.runArms s' arms := by
  cases arms with
  | nil => rfl
  | cons arm arms =>
    obtain ⟨guard, body⟩ := arm
    cases guard with
    | none =>
      simp only [Arm.freeNamesAll, Setting.agrees_append] at h
      exact runAll_agrees body h.1
    | some guard =>
      simp only [Arm.freeNamesAll, Setting.agrees_append] at h
      simp only [runArms, eval_agrees guard h.1, runAll_agrees body h.2.1,
        runArms_agrees arms h.2.2]

end

end Renderer

def AgreeOn (names : List String) (fields fields' : List (String × Value)) : Prop :=
  ∀ n ∈ names, Entries.get? n fields = Entries.get? n fields'

theorem Template.renderWith_agrees {σ : Type} (t : Template) (st : Setting)
    (embed : String → Value → Run σ String) {fields fields' : List (String × Value)}
    (h : AgreeOn t.freeNames fields fields') :
    t.renderWith st embed (.object fields) = t.renderWith st embed (.object fields') :=
  Renderer.runAll_agrees t.instructions (Setting.agrees_of_lookup h)

namespace Engine

theorem renderTemplate_agrees (e : Engine) (t : Template) {fields fields' : List (String × Value)}
    (h : AgreeOn t.freeNames fields fields') :
    e.renderTemplate t (.object fields) = e.renderTemplate t (.object fields') := by
  simp only [renderTemplate, World.render, Host.render, t.renderWith_agrees _ _ h]

/-- A render of a template, also by its name or from its source, ends alike for two objects that agree
on its free names, whatever it includes. Of all that is bound around an include, the included template
gets the value of the context, and nothing if there is none. -/
theorem render_reads_free_names :
    (∀ (e : Engine) (t : Template) (fields fields' : List (String × Value)),
      AgreeOn t.freeNames fields fields' →
      e.renderTemplate t (.object fields) = e.renderTemplate t (.object fields')) ∧
    (∀ (e : Engine) (name : String) (fields fields' : List (String × Value)),
      (∀ c, (e.compile name).1 = .ok c → AgreeOn c.template.freeNames fields fields') →
      e.render name (.object fields) = e.render name (.object fields')) ∧
    (∀ (e : Engine) (source : String) (fields fields' : List (String × Value)),
      (∀ t, compileSource source = .ok t → AgreeOn t.freeNames fields fields') →
      e.renderSource source (.object fields) = e.renderSource source (.object fields')) ∧
    ∀ (σ : Type) (r : Renderer σ) (s s' : Scope) (path : String) (context : Option Expression),
      (∀ c ∈ context, c.eval r.name r.setting s = c.eval r.name r.setting s') →
      r.run s (.embed path context) = r.run s' (.embed path context) := by
  refine ⟨fun e t fields fields' h => e.renderTemplate_agrees t h, fun e name fields fields' h => ?_,
    fun e source fields fields' h => ?_, fun σ r s s' path context h => ?_⟩
  · unfold render
    rcases hc : e.compile name with ⟨cause | c, e'⟩
    · rfl
    · exact e'.renderTemplate_agrees c.template (h c (by rw [hc]))
  · unfold renderSource
    cases hc : compileSource source with
    | error cause => rfl
    | ok t => exact e.renderTemplate_agrees t (h t hc)
  · cases context with
    | none => rfl
    | some c => simp only [Renderer.run, Renderer.eval, h c rfl]

/-- The loop binds `v`, so the field of that name is not looked at, nor the order of the fields. The
include passes `xs` on: it is the same within the loop and without. -/
theorem loop_hides_field :
    let xs : Expression := ⟨"xs", 12, .ok (.ident "xs")⟩
    let body : List Instruction := [.print ⟨"v", 17, .ok (.ident "v")⟩]
    let t : Template := ⟨none, [.loop "i" "v" xs body, .embed "p" none]⟩
    let e : Engine := ⟨⟨⟨[("p", "text")]⟩, [], {}, 3⟩, Store.empty⟩
    let fields := [("v", .null), ("xs", .array [.string "a", .string "b"])]
    let fields' := [("xs", .array [.string "a", .string "b"]), ("w", .null)]
    let r : Renderer Store := ⟨none, e.world.host.setting, e.world.host.embedAt 3 1⟩
    let s := (Scope.ofContext fields).push ⟨"i", .null, "v", .string "a"⟩
    AgreeOn t.freeNames fields fields' ∧
      e.renderTemplate t (.object fields) = e.renderTemplate t (.object fields') ∧
      r.run s (.embed "p" (some xs)) = r.run (Scope.ofContext fields') (.embed "p" (some xs)) := by
  intro xs body t e fields fields' r s
  have h : AgreeOn t.freeNames fields fields' := by
    have hfree : t.freeNames = ["xs"] := by decide
    simp [AgreeOn, hfree, Entries.get?, fields, fields']
  refine ⟨h, render_reads_free_names.1 e t fields fields' h,
    render_reads_free_names.2.2.2 Store r s (Scope.ofContext fields') "p" (some xs) ?_⟩
  rintro c ⟨⟩
  rfl

end Engine

end Stencil
