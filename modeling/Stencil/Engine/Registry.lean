import Stencil.Text.Order
import Stencil.Value.Entries
set_option autoImplicit false

namespace Stencil

structure Registry where
  sources : List (String × String)

namespace Registry

def empty : Registry := ⟨[]⟩

def set (r : Registry) (name source : String) : Registry := ⟨Entries.insert name source r.sources⟩

def get? (r : Registry) (name : String) : Option String := Entries.get? name r.sources

def remove (r : Registry) (name : String) : Registry := ⟨Entries.erase name r.sources⟩

def contains (r : Registry) (name : String) : Bool := Entries.contains name r.sources

def names (r : Registry) : List String := Text.sorted (Entries.keys r.sources)

def size (r : Registry) : Nat := r.sources.length

def ofList (sources : List (String × String)) : Registry := ⟨Entries.ofList sources⟩

theorem get?_set (r : Registry) (name other source : String) :
    (r.set name source).get? other = if other = name then some source else r.get? other :=
  Entries.get?_insert name other source r.sources

theorem get?_remove (r : Registry) (name other : String) :
    (r.remove name).get? other = if other = name then none else r.get? other :=
  Entries.get?_erase name other r.sources

end Registry

end Stencil
