import Stencil.Proofs.Eval.Errors
import Stencil.Proofs.Program.Expressions
import Stencil.Proofs.Render.Simulation
set_option autoImplicit false

/-!
# Invariants of a render

A condition on how a run has gone so far: whether it has halted, and in which state. Where the
expressions of a template and its includes keep it, a whole render does. Main statements:
`Renderer.keeps_runAll`, by induction on the instructions, and `Invariant.kept_renderWith`, for a
condition that no evaluation can break.
-/

namespace Stencil

namespace Run

variable {σ α β : Type}

def halt? : Except Halt α → Option Halt
  | .ok _ => none
  | .error h => some h

/-- A run that begins under the condition ends under it. -/
def Keeps (I : Option Halt → σ → Prop) (m : Run σ α) : Prop :=
  ∀ s, I none s → I (halt? (m.exec s).1) (m.exec s).2

variable {I : Option Halt → σ → Prop}

theorem keeps_pure (a : α) : Keeps I (pure a) := fun _ h => h

theorem Keeps.bind {m : Run σ α} {f : α → Run σ β} (h : Keeps I m) (hf : ∀ a, Keeps I (f a)) :
    Keeps I (m >>= f) := by
  intro s hs
  have hm := h s hs
  rw [Run.exec_bind]
  generalize m.exec s = x at hm
  rcases x with ⟨k | a, t⟩
  · exact hm
  · exact hf a t hm

theorem keeps_ofEval {x : Except RenderError α}
    (h : ∀ err, x = .error err → Keeps I (fail (.render err) : Run σ α)) : Keeps I (ofEval x) := by
  cases x with
  | ok v => exact keeps_pure v
  | error err => exact h err rfl

theorem keeps_concat {f : α → Run σ String} (h : ∀ a, Keeps I (f a)) (xs : List α) :
    Keeps I (concat f xs) := by
  induction xs with
  | nil => exact keeps_pure ""
  | cons x xs ih => exact (h x).bind fun s => ih.bind fun t => keeps_pure (s ++ t)

end Run

theorem Expression.eval_eq_error {e : Expression} {name : Option String} {st : Setting}
    {scope : Scope} {err : RenderError} (h : e.eval name st scope = .error err) :
    err.isSyntax = false ∨ ∃ x, e.parsed = .error x ∧ err = .expression name e.source x := by
  unfold Expression.eval Expression.tree at h
  cases hp : e.parsed with
  | ok t =>
    rw [hp] at h
    exact .inl (t.understood_eval st scope err h)
  | error x =>
    rw [hp] at h
    cases h
    exact .inr ⟨x, rfl, rfl⟩

open Run

/-- The condition still holds when one of the expressions has been evaluated, with an error perhaps, when
a value cannot be printed, when a loop has no collection, and behind an include. -/
structure Renderer.Keeps {σ : Type} (r : Renderer σ) (I : Option Halt → σ → Prop)
    (expressions : List Expression) : Prop where
  eval : ∀ scope, ∀ e ∈ expressions, Run.Keeps I (r.eval scope e)
  render : ∀ err : RenderError, err.isSyntax = false → ∀ s, I none s →
    I (some (.error (.render err))) s
  notIterable : ∀ k s, I none s → I (some (.error (.notIterable k))) s
  embed : ∀ path context, Run.Keeps I (r.embed path context)

namespace Renderer

variable {σ : Type} {r : Renderer σ} {I : Option Halt → σ → Prop}

theorem Keeps.mono {es fs : List Expression} (h : r.Keeps I es) (hf : fs ⊆ es) : r.Keeps I fs where
  eval scope e he := h.eval scope e (hf he)
  render := h.render
  notIterable := h.notIterable
  embed := h.embed

theorem Keeps.print {es : List Expression} (h : r.Keeps I es) (v : Value) :
    Run.Keeps I (ofEval v.print) :=
  keeps_ofEval fun err he => h.render err (v.understood_print err he)

mutual

theorem keeps_run (scope : Scope) (i : Instruction) (h : r.Keeps I i.expressions) :
    Run.Keeps I (r.run scope i) := by
  cases i with
  | literal text => exact keeps_pure text
  | print e => exact (h.eval scope e List.mem_cons_self).bind h.print
  | branch arms => exact keeps_runArms scope arms h
  | loop index value collection body =>
    rw [Instruction.expressions] at h
    refine (h.eval scope collection List.mem_cons_self).bind fun v => ?_
    cases v.pairs? with
    | none => exact h.notIterable v.kind
    | some ps =>
      have hbody := h.mono (List.subset_cons_self _ _)
      exact keeps_concat (fun p => keeps_runAll (scope.push ⟨index, p.1, value, p.2⟩) body hbody) ps
  | embed path context =>
    cases context with
    | none => exact h.embed path (.object [])
    | some e => exact (h.eval scope e List.mem_cons_self).bind fun v => h.embed path v

theorem keeps_runAll (scope : Scope) (is : List Instruction)
    (h : r.Keeps I (Instruction.expressionsAll is)) : Run.Keeps I (r.runAll scope is) := by
  cases is with
  | nil => exact keeps_pure ""
  | cons i is =>
    rw [Instruction.expressionsAll] at h
    have hi := h.mono (List.subset_append_left _ _)
    have his := h.mono (List.subset_append_right _ _)
    exact (keeps_run scope i hi).bind fun s =>
      (keeps_runAll scope is his).bind fun t => keeps_pure (s ++ t)

theorem keeps_runArms (scope : Scope) (arms : List Arm)
    (h : r.Keeps I (Arm.expressionsAll arms)) : Run.Keeps I (r.runArms scope arms) := by
  cases arms with
  | nil => exact keeps_pure ""
  | cons arm arms =>
    obtain ⟨guard, body⟩ := arm
    rw [Arm.expressionsAll] at h
    have hrest := h.mono (List.subset_append_right _ _)
    have hbody := hrest.mono (List.subset_append_left _ _)
    cases guard with
    | none => exact keeps_runAll scope body hbody
    | some e =>
      refine (h.eval scope e List.mem_cons_self).bind fun v => ?_
      cases v.isTruthy with
      | true => exact keeps_runAll scope body hbody
      | false => exact keeps_runArms scope arms (hrest.mono (List.subset_append_right _ _))

end

end Renderer

theorem Template.keeps_renderWith {σ : Type} {I : Option Halt → σ → Prop} {t : Template}
    {st : Setting} {embed : String → Value → Run σ String}
    (h : Renderer.Keeps ⟨t.name, st, embed⟩ I t.expressions) (context : Value) :
    Run.Keeps I (t.renderWith st embed context) := by
  cases context with
  | object fields => exact Renderer.keeps_runAll _ _ h
  | _ => exact h.render _ rfl

/-- A condition that still holds when an expression fails or a loop has no collection. -/
structure Invariant (σ : Type) where
  holds : Option Halt → σ → Prop
  render : ∀ e s, holds none s → holds (some (.error (.render e))) s
  notIterable : ∀ k s, holds none s → holds (some (.error (.notIterable k))) s

namespace Invariant

variable {σ α β : Type} {I : Invariant σ}

def Kept (I : Invariant σ) (m : Run σ α) : Prop :=
  ∀ s, I.holds none s → I.holds (Run.halt? (m.exec s).1) (m.exec s).2

theorem Kept.bind {m : Run σ α} {f : α → Run σ β} (h : I.Kept m) (hf : ∀ a, I.Kept (f a)) :
    I.Kept (m >>= f) := Keeps.bind h hf

theorem kept_renderWith {st : Setting} {embed : String → Value → Run σ String}
    (h : ∀ path context, I.Kept (embed path context)) (t : Template) (context : Value) :
    I.Kept (t.renderWith st embed context) := by
  have hrenderer : Renderer.Keeps ⟨t.name, st, embed⟩ I.holds t.expressions :=
    ⟨fun scope e _ => keeps_ofEval fun err _ => I.render err, fun err _ => I.render err,
      I.notIterable, h⟩
  exact t.keeps_renderWith hrenderer context

end Invariant

end Stencil
