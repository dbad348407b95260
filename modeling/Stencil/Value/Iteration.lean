import Stencil.Value.Basic
set_option autoImplicit false

namespace Stencil.Value

def enumerate (start : Nat) : List Value → List (Value × Value)
  | [] => []
  | v :: vs => (.number (.ofCount start), v) :: enumerate (start + 1) vs

theorem length_enumerate (start : Nat) (vs : List Value) :
    (enumerate start vs).length = vs.length := by
  induction vs generalizing start with
  | nil => rfl
  | cons v vs ih => simp [enumerate, ih]

inductive Rounds where
  | items (position : Nat) (values : List Value)
  | fields (entries : List (String × Value))

namespace Rounds

def next? : Rounds → Option ((Value × Value) × Rounds)
  | .items position (v :: vs) => some ((.number (.ofCount position), v), .items (position + 1) vs)
  | .fields (f :: fs) => some ((.string f.1, f.2), .fields fs)
  | .items _ [] | .fields [] => none

/-- At least and at most so many rounds are to come. -/
def sizeHint : Rounds → Nat × Option Nat
  | .items _ values => (values.length, some values.length)
  | .fields entries => (entries.length, some entries.length)

def pairs : Rounds → List (Value × Value)
  | .items position values => enumerate position values
  | .fields entries => entries.map fun f => (.string f.1, f.2)

theorem pairs_eq (r : Rounds) :
    r.pairs = match r.next? with
      | some (p, rest) => p :: rest.pairs
      | none => [] := by
  cases r with
  | items position values => cases values <;> rfl
  | fields entries => cases entries <;> rfl

theorem sizeHint_eq (r : Rounds) : r.sizeHint = (r.pairs.length, some r.pairs.length) := by
  cases r <;> simp [sizeHint, pairs, length_enumerate]

end Rounds

/-- The rounds of a loop over the value; only arrays and objects have them. -/
def rounds? : Value → Option Rounds
  | .array items => some (.items 0 items)
  | .object fields => some (.fields fields)
  | _ => none

def pairs? (v : Value) : Option (List (Value × Value)) := v.rounds?.map Rounds.pairs

end Stencil.Value
