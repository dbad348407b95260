import Stencil.Proofs.Eval.Errors
import Stencil.Proofs.Program.Joining
import Stencil.Proofs.Render.Simulation
set_option autoImplicit false

namespace Stencil

/-- The error once `n` bytes are put in front of the source that is rendered. A text of a template
with a name stands in another source, which has not changed. -/
def RenderError.moved (n : Nat) : RenderError → RenderError
  | .expression none source e => .expression none source (e.shift n)
  | e => e

def Halt.moved (n : Nat) : Halt → Halt
  | .error (.render e) => .error (.render (e.moved n))
  | h => h

theorem RenderError.moved_eq_self {err : RenderError} (h : err.isSyntax = false) (n : Nat) :
    err.moved n = err := by
  cases err with
  | expression => cases h
  | _ => rfl

theorem Understood.mapError_moved {α : Type} {x : Except RenderError α} (h : Understood x)
    (n : Nat) : x.mapError (RenderError.moved n) = x := by
  cases x with
  | ok a => rfl
  | error err => exact congrArg Except.error (RenderError.moved_eq_self (h err rfl) n)

namespace Expression

variable (e : Expression) (st : Setting) (scope : Scope) (n : Nat)

theorem eval_shift :
    (e.shift n).eval none st scope = (e.eval none st scope).mapError (RenderError.moved n) := by
  simp only [eval, tree, shift]
  cases e.parsed with
  | error x => rfl
  | ok x => exact ((x.understood_eval st scope).mapError_moved n).symm

theorem eval_named (name : String) :
    (e.eval (some name) st scope).mapError (RenderError.moved n) = e.eval (some name) st scope := by
  simp only [eval, tree]
  cases e.parsed with
  | error x => rfl
  | ok x => exact (x.understood_eval st scope).mapError_moved n

end Expression

namespace Run

variable {σ α β : Type} (f : Halt → Halt)

theorem ext_exec {m n : Run σ α} (h : ∀ s, m.exec s = n.exec s) : m = n := funext h

theorem exec_adapt (m : Run σ α) (s : σ) :
    Run.exec (m.adapt f) s = ((m.exec s).1.mapError f, (m.exec s).2) := rfl

theorem adapt_pure (a : α) : (pure a : Run σ α).adapt f = pure a := rfl

theorem adapt_bind (m : Run σ α) (g : α → Run σ β) :
    (m >>= g).adapt f = m.adapt f >>= fun a => (g a).adapt f := by
  refine ext_exec fun s => ?_
  rw [exec_adapt, exec_bind, exec_bind, exec_adapt]
  rcases m.exec s with ⟨h | a, s'⟩ <;> rfl

theorem adapt_concat (g : α → Run σ String) (xs : List α) :
    (concat g xs).adapt f = concat (fun x => (g x).adapt f) xs := by
  induction xs with
  | nil => rfl
  | cons x xs ih => simp only [concat, adapt_bind, adapt_pure, ih]

theorem adapt_ofEval (n : Nat) (x : Except RenderError α) :
    (ofEval x : Run σ α).adapt (Halt.moved n) = ofEval (x.mapError (RenderError.moved n)) := by
  cases x <;> rfl

end Run

/-- Moving the expressions of a template by `m` bytes moves the places in the errors by `n`. Both are
the same for the source that is rendered, and `m` is zero for an included template. -/
structure Renderer.Moves {σ : Type} (r : Renderer σ) (m n : Nat) : Prop where
  eval : ∀ scope e, r.eval scope (e.shift m) = (r.eval scope e).adapt (Halt.moved n)
  embed : ∀ path context, r.embed path context = (r.embed path context).adapt (Halt.moved n)

namespace Renderer

variable {σ : Type} {r : Renderer σ} {m n : Nat}

mutual

theorem run_shift (h : r.Moves m n) (scope : Scope) (i : Instruction) :
    r.run scope (i.shift m) = (r.run scope i).adapt (Halt.moved n) := by
  cases i with
  | literal text => rfl
  | print e =>
    simp only [Instruction.shift, run, h.eval, Run.adapt_bind, Run.adapt_ofEval,
      (Value.understood_print _).mapError_moved]
  | branch arms => simp only [Instruction.shift, run, runArms_shift h scope arms]
  | loop index value collection body =>
    simp only [Instruction.shift, run, h.eval, Run.adapt_bind]
    congr 1
    funext v
    cases v.pairs? with
    | none => rfl
    | some ps => simp only [runAll_shift h _ body, Run.adapt_concat]
  | embed path context =>
    cases context with
    | none => exact h.embed path _
    | some e =>
      simp only [Instruction.shift, Option.map, run, h.eval, Run.adapt_bind]
      congr 1
      funext v
      exact h.embed path v

theorem runAll_shift (h : r.Moves m n) (scope : Scope) (is : List Instruction) :
    r.runAll scope (Instruction.shiftAll m is) = (r.runAll scope is).adapt (Halt.moved n) := by
  cases is with
  | nil => rfl
  | cons i is =>
    simp only [Instruction.shiftAll, runAll, run_shift h scope i, runAll_shift h scope is,
      Run.adapt_bind, Run.adapt_pure]

theorem runArms_shift (h : r.Moves m n) (scope : Scope) (arms : List Arm) :
    r.runArms scope (Arm.shiftAll m arms) = (r.runArms scope arms).adapt (Halt.moved n) := by
  cases arms with
  | nil => rfl
  | cons arm arms =>
    obtain ⟨guard, body⟩ := arm
    cases guard with
    | none => exact runAll_shift h scope body
    | some e =>
      simp only [Arm.shiftAll, Option.map, runArms, h.eval, Run.adapt_bind]
      congr 1
      funext v
      cases v.isTruthy with
      | true => exact runAll_shift h scope body
      | false => exact runArms_shift h scope arms

end

end Renderer

theorem Template.renderWith_shift {σ : Type} {t : Template} {st : Setting}
    {f : String → Value → Run σ String} {m n : Nat} (h : Renderer.Moves ⟨t.name, st, f⟩ m n)
    (context : Value) :
    Template.renderWith ⟨t.name, Instruction.shiftAll m t.instructions⟩ st f context =
      (t.renderWith st f context).adapt (Halt.moved n) := by
  cases context with
  | object fields => exact Renderer.runAll_shift h _ _
  | _ => rfl

namespace Renderer

variable {σ : Type} (st : Setting) {f : String → Value → Run σ String} {n : Nat}

theorem moves_unnamed (hf : ∀ path context, f path context = (f path context).adapt (Halt.moved n)) :
    Moves ⟨none, st, f⟩ n n where
  eval scope e := by simp only [eval, e.eval_shift, Run.adapt_ofEval]
  embed := hf

theorem moves_named (name : String)
    (hf : ∀ path context, f path context = (f path context).adapt (Halt.moved n)) :
    Moves ⟨some name, st, f⟩ 0 n where
  eval scope e := by simp only [eval, e.shift_zero, Run.adapt_ofEval, e.eval_named]
  embed := hf

end Renderer

end Stencil
