import Stencil.Eval.Basic
set_option autoImplicit false

namespace Stencil

structure Settings where
  maxIncludeDepth : Option Nat := none
  undefined : Undefined := .strict
  deriving DecidableEq, Repr

def Settings.exceeded? (s : Settings) (depth : Nat) : Option Nat :=
  s.maxIncludeDepth.filter fun limit => limit < depth

theorem Settings.exceeded?_eq_none_iff (s : Settings) (depth : Nat) :
    s.exceeded? depth = none ↔ ∀ limit ∈ s.maxIncludeDepth, depth ≤ limit := by
  simp [exceeded?]

theorem Settings.exceeded?_eq {s : Settings} {limit : Nat} (h : s.maxIncludeDepth = some limit)
    (depth : Nat) : s.exceeded? depth = if limit < depth then some limit else none := by
  simp [exceeded?, h, Option.filter]

end Stencil
