import Stencil.Text.Blank
import Stencil.Text.Ranges
import Stencil.Text.WidthTable
set_option autoImplicit false

namespace Stencil.Text

/-- The columns that the character takes with `column` characters in front of it. -/
def width (column : Nat) (c : Char) : Nat :=
  if c = '\t' then (column / 4 + 1) * 4 - column
  else if isBlank c then 1
  else if inRanges WidthTable.zero c then 0
  else if inRanges WidthTable.double c then 2
  else 1

def shown (column : Nat) (c : Char) : List Char :=
  if isBlank c then List.replicate (width column c) ' ' else [c]

theorem shown_length_tab (column : Nat) : (shown column '\t').length = width column '\t' := by
  have : isBlank '\t' = true := by decide
  simp [shown, this]

theorem width_tab_pos (column : Nat) : 0 < width column '\t' := by
  simp only [width, if_pos]
  omega

end Stencil.Text
