import Stencil.Text.Span
set_option autoImplicit false

namespace Stencil.Text

/-- Skipped between the tokens of an expression. -/
def isLexBlank (c : Char) : Bool := c = ' ' || c = '\t' || c = '\n' || c = '\r'

/-- Skipped around the marker of a slot: also a form feed. -/
def isSlotBlank (c : Char) : Bool := isLexBlank c || c = '\x0c'

/-- The Unicode property White_Space. -/
def isBlank (c : Char) : Bool :=
  let n := c.toNat
  (9 ≤ n && n ≤ 13) || n = 32 || n = 0x85 || n = 0xA0 || n = 0x1680 ||
    (0x2000 ≤ n && n ≤ 0x200A) || n = 0x2028 || n = 0x2029 || n = 0x202F || n = 0x205F ||
    n = 0x3000

theorem isLexBlank_isSlotBlank {c : Char} (h : isLexBlank c = true) : isSlotBlank c = true := by
  simp [isSlotBlank, h]

theorem isSlotBlank_isBlank {c : Char} (h : isSlotBlank c = true) : isBlank c = true := by
  simp only [isSlotBlank, isLexBlank, Bool.or_eq_true, decide_eq_true_eq] at h
  rcases h with (((h | h) | h) | h) | h <;> subst h <;> decide

def trimStart (cs : List Char) : List Char := cs.dropWhile isBlank

def trimEnd (cs : List Char) : List Char := (cs.reverse.dropWhile isBlank).reverse

def trim (cs : List Char) : List Char := trimEnd (trimStart cs)

def leadingBlanks (cs : List Char) : List Char := cs.takeWhile isBlank

theorem leadingBlanks_append_trimStart (cs : List Char) :
    leadingBlanks cs ++ trimStart cs = cs :=
  List.takeWhile_append_dropWhile

def trailingBlanks (cs : List Char) : List Char := (cs.reverse.takeWhile isBlank).reverse

theorem trimEnd_append_trailingBlanks (cs : List Char) : trimEnd cs ++ trailingBlanks cs = cs := by
  rw [trimEnd, trailingBlanks, ← List.reverse_append, List.takeWhile_append_dropWhile,
    List.reverse_reverse]

end Stencil.Text
