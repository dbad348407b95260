import Stencil.Engine.Render
set_option autoImplicit false

/-!
# Engine

Registered sources, the templates compiled from them, functions and settings. Changing a source does
not touch the template that is compiled from it: that one is used until the cache is cleared.
-/

namespace Stencil

structure Engine where
  world : World
  store : Store

namespace Engine

def ofSettings (settings : Settings) (room : Nat := 4096) : Engine :=
  ⟨⟨Registry.empty, Functions.standard, settings, room⟩, Store.empty⟩

def empty : Engine := ofSettings {}

def registry (e : Engine) : Registry := e.world.registry

def setRegistry (e : Engine) (r : Registry) : Engine := { e with world.registry := r }

def set (e : Engine) (name source : String) : Engine := e.setRegistry (e.registry.set name source)

def get? (e : Engine) (name : String) : Option String := e.registry.get? name

def remove (e : Engine) (name : String) : Engine := e.setRegistry (e.registry.remove name)

def clear (e : Engine) : Engine := e.setRegistry Registry.empty

def clearCache (e : Engine) : Engine := { e with store.cache := [] }

def isCached (e : Engine) (name : String) : Bool := (e.store.find? name).isSome

def addFunction (e : Engine) (name : String) (f : Function) : Engine :=
  { e with world.functions := Entries.insert name f e.world.functions }

/-- The compiled template of this name, which is kept from then on. -/
def compile (e : Engine) (name : String) : Except CompileError Compiled × Engine :=
  let (result, store) := e.store.load e.registry name
  (result, { e with store := store })

def compileSource (source : String) : Except CompileError Template := Template.compile none source

def exec {α : Type} (e : Engine) (run : Run Store α) : Except Halt α × Engine :=
  let (result, store) := run.exec e.store
  (result, { e with store := store })

def renderTemplate (e : Engine) (t : Template) (context : Value) : Except Halt String × Engine :=
  e.exec (e.world.render t context)

def render (e : Engine) (name : String) (context : Value) : Except Halt String × Engine :=
  match e.compile name with
  | (.ok c, e) => e.renderTemplate c.template context
  | (.error cause, e) => (.error (.error (.compile cause)), e)

def renderSource (e : Engine) (source : String) (context : Value) :
    Except Halt String × Engine :=
  match compileSource source with
  | .ok t => e.renderTemplate t context
  | .error cause => (.error (.error (.compile cause)), e)

end Engine

end Stencil
