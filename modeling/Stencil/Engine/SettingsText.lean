import Stencil.Engine.Settings
import Stencil.Toml.Statement
set_option autoImplicit false

namespace Stencil

def Undefined.name : Undefined → String
  | .strict => "strict"
  | .lenient => "lenient"

def Undefined.ofName? (name : String) : Option Undefined :=
  [Undefined.strict, .lenient].find? fun u => u.name = name

theorem Undefined.ofName?_name (u : Undefined) : ofName? u.name = some u := by cases u <;> decide

namespace Settings

inductive Clause where
  | limit (n : Nat)
  /-- A choice made at the top of the document. -/
  | chosen (u : Undefined)
  /-- The table of the choice is opened. -/
  | opened
  /-- A choice made by or below the heading of a table. -/
  | nested (u : Undefined)
  deriving DecidableEq, Repr

def choice? (name : String) (item : Toml.Item) : Option Undefined :=
  if item.isVoid then Undefined.ofName? name else none

/-- What the statement says below the heading `here`. -/
def clause? (here : List String) : Toml.Statement → Option Clause
  | .header ["undefined"] => some .opened
  | .header ["undefined", name] => (Undefined.ofName? name).map .nested
  | .header _ => none
  | .assign path item =>
    match here, path, item with
    | [], ["max_include_depth"], .int n => if 0 ≤ n then some (.limit n.toNat) else none
    | [], ["undefined"], .text name => (Undefined.ofName? name).map .chosen
    | [], ["undefined"], .table [([name], item)] => (choice? name item).map .chosen
    | [], ["undefined", name], item => (choice? name item).map .chosen
    | ["undefined"], [name], item => (choice? name item).map .nested
    | _, _, _ => none

def clauses? (here : List String) : List Toml.Statement → Option (List Clause)
  | [] => some []
  | s :: ss => do
    let c ← clause? here s
    let below := match s with
      | .header path => path
      | .assign .. => here
    let cs ← clauses? below ss
    return c :: cs

/-- The choice is made once: at the top, or in a table that is opened at most once. -/
def undefined? (cs : List Clause) : Option Undefined :=
  let chosen := cs.filterMap fun
    | .chosen u => some u
    | _ => none
  let nested := cs.filterMap fun
    | .nested u => some u
    | _ => none
  match chosen, nested, cs.count .opened with
  | [], [], 0 => some .strict
  | [u], [], 0 => some u
  | [], [u], 0 => some u
  | [], [u], 1 => some u
  | _, _, _ => none

def limit? (cs : List Clause) : Option (Option Nat) :=
  let limits := cs.filterMap fun
    | .limit n => some n
    | _ => none
  match limits with
  | [] => some none
  | [n] => some (some n)
  | _ => none

def ofText? (document : String) : Option Settings := do
  let cs ← clauses? [] (← Toml.statements? document)
  return ⟨← limit? cs, ← undefined? cs⟩

end Settings

end Stencil
