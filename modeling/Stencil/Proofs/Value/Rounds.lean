import Mathlib.Logic.Function.Iterate
import Stencil.Value.Iteration
set_option autoImplicit false

namespace Stencil.Value

theorem getElem?_enumerate (start : ℕ) (vs : List Value) (k : ℕ) :
    (enumerate start vs)[k]? = vs[k]?.map fun v => (.number (.ofCount (start + k)), v) := by
  induction vs generalizing start k with
  | nil => rfl
  | cons v vs ih =>
    cases k with
    | zero => simp [enumerate]
    | succ k =>
      rw [enumerate, List.getElem?_cons_succ, List.getElem?_cons_succ, ih, Nat.add_assoc, Nat.add_comm 1]

theorem map_snd_enumerate (start : ℕ) (vs : List Value) : (enumerate start vs).map Prod.snd = vs := by
  induction vs generalizing start with
  | nil => rfl
  | cons v vs ih => simp [enumerate, ih]

namespace Rounds

/-- The rounds behind the next one. Behind the last one nothing changes any more. -/
def step (r : Rounds) : Rounds := (r.next?.map Prod.snd).getD r

/-- The rounds are these pairs in their order, and at every step it is known how many are to come. -/
structure Runs (r : Rounds) (ps : List (Value × Value)) : Prop where
  next : ∀ n, (step^[n] r).next?.map Prod.fst = ps[n]?
  sizeHint : ∀ n, (step^[n] r).sizeHint = (ps.length - n, some (ps.length - n))

theorem next?_eq_head? (r : Rounds) : r.next?.map Prod.fst = r.pairs.head? := by
  rw [pairs_eq]
  cases r.next? <;> rfl

theorem pairs_step (r : Rounds) : r.step.pairs = r.pairs.tail := by
  rw [step, r.pairs_eq]
  cases h : r.next? with
  | none => simp [pairs_eq r, h]
  | some p => rfl

theorem pairs_iterate_step (r : Rounds) (n : ℕ) : (step^[n] r).pairs = r.pairs.drop n := by
  induction n with
  | zero => rfl
  | succ n ih => rw [Function.iterate_succ_apply', pairs_step, ih, List.tail_drop]

theorem runs_pairs (r : Rounds) : r.Runs r.pairs where
  next n := by rw [next?_eq_head?, pairs_iterate_step, List.head?_drop]
  sizeHint n := by rw [sizeHint_eq, pairs_iterate_step, List.length_drop]

end Rounds

end Stencil.Value
