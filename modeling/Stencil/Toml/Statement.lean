import Stencil.Toml.Text
set_option autoImplicit false

namespace Stencil.Toml

inductive Item where
  | int (n : Int)
  | text (s : String)
  | noList
  | table (entries : List (List String × Item))
  deriving Repr

def Item.isVoid : Item → Bool
  | .noList => true
  | .table [] => true
  | _ => false

inductive Statement where
  | assign (path : List String) (item : Item)
  | header (path : List String)
  deriving Repr

mutual

/-- An item. The fuel bounds how many items and paths are read. -/
def item? : Nat → List Char → Option (Item × List Char)
  | 0, _ => none
  | fuel + 1, cs =>
    match cs with
    | '[' :: cs =>
      match skipVoid false cs with
      | ']' :: cs => some (.noList, cs)
      | _ => none
    | '\x7b' :: cs =>
      match skipSpaces cs with
      | '\x7d' :: cs => some (.table [], cs)
      | cs => do
        let (entries, cs) ← entries? fuel cs
        return (.table entries, cs)
    | cs =>
      match text? cs with
      | some (text, cs) => some (.text (String.ofList text), cs)
      | none => (integer? cs).map fun (n, cs) => (.int n, cs)

def entries? : Nat → List Char → Option (List (List String × Item) × List Char)
  | 0, _ => none
  | fuel + 1, cs => do
    let (path, cs) ← path? fuel cs
    let '=' :: cs := cs | none
    let (item, cs) ← item? fuel (skipSpaces cs)
    match skipSpaces cs with
    | ',' :: cs =>
      let (entries, cs) ← entries? fuel cs
      return ((path, item) :: entries, cs)
    | '\x7d' :: cs => return ([(path, item)], cs)
    | _ => none

end

def statement? (fuel : Nat) (cs : List Char) : Option (Statement × List Char) :=
  match cs with
  | '[' :: cs => do
    let (path, cs) ← path? fuel cs
    let ']' :: cs := cs | none
    let cs ← endLine? cs
    return (.header path, cs)
  | cs => do
    let (path, cs) ← path? fuel cs
    let '=' :: cs := cs | none
    let (item, cs) ← item? fuel (skipSpaces cs)
    let cs ← endLine? cs
    return (.assign path item, cs)

/-- The statements in order. Each step of the fuel reads a statement or ends a line. -/
def statementsFrom : Nat → List Char → Option (List Statement)
  | 0, _ => none
  | fuel + 1, cs =>
    match endLine? cs with
    | some [] => some []
    | some cs => statementsFrom fuel cs
    | none => do
      let (s, cs) ← statement? fuel (skipSpaces cs)
      let ss ← statementsFrom fuel cs
      return s :: ss

def statements? (document : String) : Option (List Statement) :=
  match document.toList with
  | '\ufeff' :: cs => statementsFrom (cs.length + 2) cs
  | cs => statementsFrom (cs.length + 2) cs

end Stencil.Toml
