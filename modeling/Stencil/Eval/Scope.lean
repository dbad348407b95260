import Stencil.Value.Basic
set_option autoImplicit false

namespace Stencil

structure LoopFrame where
  indexName : String
  index : Value
  valueName : String
  value : Value

/-- The value's name hides the index's if both are the same. -/
def LoopFrame.get? (f : LoopFrame) (name : String) : Option Value :=
  if f.valueName = name then some f.value
  else if f.indexName = name then some f.index
  else none

theorem LoopFrame.get?_eq_none_iff (f : LoopFrame) (name : String) :
    f.get? name = none ↔ name ≠ f.indexName ∧ name ≠ f.valueName := by
  unfold get?
  grind

/-- The fields of the context and the open loops, innermost first. -/
structure Scope where
  context : List (String × Value)
  frames : List LoopFrame

namespace Scope

def ofContext (fields : List (String × Value)) : Scope := ⟨fields, []⟩

def push (s : Scope) (f : LoopFrame) : Scope := { s with frames := f :: s.frames }

def pop (s : Scope) : Scope := { s with frames := s.frames.tail }

def depth (s : Scope) : Nat := s.frames.length

def lookup (s : Scope) (name : String) : Option Value :=
  (s.frames.findSome? fun f => f.get? name).or (Entries.get? name s.context)

@[simp] theorem pop_push (s : Scope) (f : LoopFrame) : (s.push f).pop = s := rfl

theorem lookup_push (s : Scope) (f : LoopFrame) (name : String) :
    (s.push f).lookup name = (f.get? name).or (s.lookup name) := by
  cases h : f.get? name <;> simp [lookup, push, h]

theorem lookup_ofContext (fields : List (String × Value)) (name : String) :
    (ofContext fields).lookup name = Entries.get? name fields := rfl

end Scope

end Stencil
