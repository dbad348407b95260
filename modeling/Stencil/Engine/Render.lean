import Stencil.Engine.Error
import Stencil.Engine.Registry
import Stencil.Engine.Settings
import Stencil.Program.Blocks
import Stencil.Value.Iteration
set_option autoImplicit false

/-!
# Rendering

The instructions of a template are run against a context. How an include is carried out is a
parameter of running instructions; `Host.embedAt` then closes the circle, level by level of includes,
and takes the templates from wherever the host has them. The host of an engine compiles a template on
first use and keeps it in a store, also when the render fails later.
-/

namespace Stencil

/-- A compiled template and the number under which it was compiled: two with one number are the same
object. -/
structure Compiled where
  template : Template
  stamp : Nat

/-- The templates compiled by name, and how many there have been. -/
structure Store where
  cache : List (String × Compiled)
  count : Nat

def Registry.compile (r : Registry) (name : String) : Except CompileError Template :=
  match r.get? name with
  | none => .error (.notFound name)
  | some source => Template.compile (some name) source

namespace Store

def empty : Store := ⟨[], 0⟩

def find? (s : Store) (name : String) : Option Compiled := Entries.get? name s.cache

def keep (s : Store) (name : String) (t : Template) : Store :=
  ⟨Entries.insert name ⟨t, s.count⟩ s.cache, s.count + 1⟩

/-- The template in the store, or else the registered one, which is compiled and kept. -/
def load (s : Store) (r : Registry) (name : String) : Except CompileError Compiled × Store :=
  match s.find? name with
  | some c => (.ok c, s)
  | none =>
    match r.compile name with
    | .error e => (.error e, s)
    | .ok t => (.ok ⟨t, s.count⟩, s.keep name t)

end Store

/-- Why a render ends without a text: an error, or more levels of includes than it was given. -/
inductive Halt where
  | error (e : Error)
  | exhausted
  deriving DecidableEq, Repr

/-- A computation on a state, which keeps what it did to the state when it fails. -/
abbrev Run (σ α : Type) := ExceptT Halt (StateM σ) α

namespace Run

variable {σ α : Type}

def exec (m : Run σ α) (s : σ) : Except Halt α × σ := m s

def fail (e : Error) : Run σ α := throw (.error e)

def ofEval : Except RenderError α → Run σ α
  | .ok v => pure v
  | .error e => fail (.render e)

def concat (f : α → Run σ String) : List α → Run σ String
  | [] => pure ""
  | x :: xs => do
    let s ← f x
    let t ← concat f xs
    return s ++ t

end Run

def Expression.eval (e : Expression) (template : Option String) (st : Setting) (scope : Scope) :
    Except RenderError Value := do
  (← e.tree template).eval st scope

/-- What an instruction needs besides the scope: the template's name, the evaluation's setting and
how to include a template with a context. -/
structure Renderer (σ : Type) where
  name : Option String
  setting : Setting
  embed : String → Value → Run σ String

namespace Renderer

variable {σ : Type}

def eval (r : Renderer σ) (scope : Scope) (e : Expression) : Run σ Value :=
  Run.ofEval (e.eval r.name r.setting scope)

mutual

def run (r : Renderer σ) (scope : Scope) : Instruction → Run σ String
  | .literal text => pure text
  | .print e => do
    let v ← r.eval scope e
    Run.ofEval v.print
  | .branch arms => runArms r scope arms
  | .loop index value collection body => do
    let v ← r.eval scope collection
    match v.pairs? with
    | none => Run.fail (.notIterable v.kind)
    | some ps => Run.concat (fun p => runAll r (scope.push ⟨index, p.1, value, p.2⟩) body) ps
  | .embed path none => r.embed path (.object [])
  | .embed path (some context) => do
    let v ← r.eval scope context
    r.embed path v

def runAll (r : Renderer σ) (scope : Scope) : List Instruction → Run σ String
  | [] => pure ""
  | i :: is => do
    let s ← run r scope i
    let t ← runAll r scope is
    return s ++ t

/-- The first arm whose guard holds; the guards behind it are not evaluated. -/
def runArms (r : Renderer σ) (scope : Scope) : List Arm → Run σ String
  | [] => pure ""
  | .mk none body :: _ => runAll r scope body
  | .mk (some guard) body :: arms => do
    let v ← r.eval scope guard
    if v.isTruthy then runAll r scope body else runArms r scope arms

end

end Renderer

def Template.renderWith {σ : Type} (t : Template) (st : Setting)
    (embed : String → Value → Run σ String) (context : Value) : Run σ String :=
  match context with
  | .object fields =>
    Renderer.runAll ⟨t.name, st, embed⟩ (Scope.ofContext fields) t.instructions
  | v => Run.fail (.render (.invalidContext v.kind))

/-- What renders take from outside: functions, settings and the templates to be included. -/
structure Host (σ : Type) where
  functions : Functions
  settings : Settings
  load : String → Run σ Template

namespace Host

variable {σ : Type}

def setting (h : Host σ) : Setting := ⟨h.functions, h.settings.undefined⟩

/-- Includes a template at a depth, with so many further levels to go. The settings' limit is
checked before the template is looked up. -/
def embedAt (h : Host σ) (levels depth : Nat) (path : String) (context : Value) : Run σ String :=
  match h.settings.exceeded? depth with
  | some limit => Run.fail (.embed (.depthExceeded path limit))
  | none =>
    match levels with
    | 0 => throw .exhausted
    | levels + 1 => do
      let t ← h.load path
      t.renderWith h.setting (h.embedAt levels (depth + 1)) context

def render (h : Host σ) (levels : Nat) (t : Template) (context : Value) : Run σ String :=
  t.renderWith h.setting (h.embedAt levels 1) context

end Host

/-- What a render takes from the engine and leaves as it is. `room` is how many levels of includes
there are where the settings set no limit. -/
structure World where
  registry : Registry
  functions : Functions
  settings : Settings
  room : Nat

namespace World

def levels (w : World) : Nat := w.settings.maxIncludeDepth.getD w.room

def loadIncluded (w : World) (path : String) : Run Store Template := fun s =>
  match s.load w.registry path with
  | (.ok c, s) => (.ok c.template, s)
  | (.error e, s) => (.error (.error (.embed (.ofCompile path e))), s)

def host (w : World) : Host Store := ⟨w.functions, w.settings, w.loadIncluded⟩

def render (w : World) (t : Template) (context : Value) : Run Store String :=
  w.host.render w.levels t context

end World

end Stencil
