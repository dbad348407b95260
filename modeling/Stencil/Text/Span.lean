set_option autoImplicit false

namespace Stencil

namespace Text

def byteLength : List Char → Nat
  | [] => 0
  | c :: cs => c.utf8Size + byteLength cs

@[simp] theorem byteLength_nil : byteLength [] = 0 := rfl

@[simp] theorem byteLength_cons (c : Char) (cs : List Char) :
    byteLength (c :: cs) = c.utf8Size + byteLength cs := rfl

@[simp] theorem byteLength_append (xs ys : List Char) :
    byteLength (xs ++ ys) = byteLength xs + byteLength ys := by
  induction xs with
  | nil => simp
  | cons c cs ih => simp [ih, Nat.add_assoc]

theorem length_le_byteLength (cs : List Char) : cs.length ≤ byteLength cs := by
  induction cs with
  | nil => simp
  | cons c cs ih => have := c.utf8Size_pos; simp; omega

end Text

/-- A range of byte positions, `start` included and `stop` not. -/
structure Span where
  start : Nat
  stop : Nat
  deriving DecidableEq, Repr

namespace Span

/-- The span of the same bytes once `offset` bytes are put in front of them. -/
def shift (s : Span) (offset : Nat) : Span := ⟨s.start + offset, s.stop + offset⟩

@[simp] theorem shift_zero (s : Span) : s.shift 0 = s := rfl

theorem shift_shift (s : Span) (m n : Nat) : (s.shift m).shift n = s.shift (m + n) := by
  simp [shift, Nat.add_assoc]

def text (s : Span) : String := s!"{s.start}..{s.stop}"

end Span

end Stencil
