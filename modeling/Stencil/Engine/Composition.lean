import Stencil.Engine.Basic
import Stencil.Text.Quoted
set_option autoImplicit false

/-!
# Compositions

Output assembled from parts: fixed texts and fragments, all run against one context. A fragment is a
template, a list of fragments, a composition, or a resolver that looks at the context first.
-/

namespace Stencil

mutual

inductive Fragment where
  | template (t : Template)
  | list (items : List Fragment)
  | composed (parts : List Part)
  | print (resolve : Value → Printed)

inductive Part where
  | text (s : String)
  | slot (fragment : Fragment)

inductive Printed where
  | text (s : String)
  | nested (fragment : Fragment)

end

instance : Inhabited Fragment := ⟨.list []⟩

instance : Inhabited Part := ⟨.text ""⟩

abbrev Composition := List Part

section

variable {σ : Type}

mutual

def Fragment.render (render : Template → Run σ String) (context : Value) : Fragment → Run σ String
  | .template t => render t
  | .list items => Fragment.renderAll render context items
  | .composed parts => Part.renderAll render context parts
  | .print resolve => Printed.render render context (resolve context)

def Fragment.renderAll (render : Template → Run σ String) (context : Value) :
    List Fragment → Run σ String
  | [] => pure ""
  | f :: fs => do
    let s ← f.render render context
    let t ← Fragment.renderAll render context fs
    return s ++ t

def Part.render (render : Template → Run σ String) (context : Value) : Part → Run σ String
  | .text s => pure s
  | .slot f => f.render render context

def Part.renderAll (render : Template → Run σ String) (context : Value) : List Part → Run σ String
  | [] => pure ""
  | p :: ps => do
    let s ← p.render render context
    let t ← Part.renderAll render context ps
    return s ++ t

def Printed.render (render : Template → Run σ String) (context : Value) : Printed → Run σ String
  | .text s => pure s
  | .nested f => f.render render context

end

end

def Part.listed : Part → String
  | .text s => Text.quoted s
  | .slot _ => "<slot>"

namespace Composition

def listing (c : Composition) : String := "[" ++ ", ".intercalate (c.map Part.listed) ++ "]"

def render (c : Composition) (e : Engine) (context : Value) : Except Halt String × Engine :=
  e.exec (Part.renderAll (fun t => e.world.render t context) context c)

end Composition

end Stencil
