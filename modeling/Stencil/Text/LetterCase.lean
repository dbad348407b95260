import Stencil.Text.CaseTable
import Stencil.Text.Ranges
set_option autoImplicit false

namespace Stencil.Text

open CaseTable

def mapCase (runs : List Run) (sequences : List (Nat × List Nat)) (c : Char) : List Char :=
  let n := c.toNat
  match sequences.find? fun s => s.1 = n with
  | some s => s.2.map Char.ofNat
  | none =>
    match runs.find? fun r => r.first ≤ n && n ≤ r.last && (n - r.first) % r.step = 0 with
    | some r => [Char.ofNat (n + r.shift).toNat]
    | none => [c]

def upperChar (c : Char) : List Char := mapCase upperRuns upperSequences c

def lowerChar (c : Char) : List Char := mapCase lowerRuns lowerSequences c

def upper (cs : List Char) : List Char := cs.flatMap upperChar

theorem upper_append (cs ds : List Char) : upper (cs ++ ds) = upper cs ++ upper ds := by
  simp [upper]

def casedAhead (cs : List Char) : Bool :=
  match cs.dropWhile (inRanges ignorable) with
  | c :: _ => inRanges cased c
  | [] => false

/-- Lower case behind the characters `before`, nearest first. -/
def lowerBehind (before : List Char) : List Char → List Char
  | [] => []
  | c :: cs =>
    (if c = 'Σ' then if casedAhead before && !casedAhead cs then ['ς'] else ['σ']
    else lowerChar c) ++ lowerBehind (c :: before) cs

def lower (cs : List Char) : List Char := lowerBehind [] cs

end Stencil.Text
