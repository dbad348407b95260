set_option autoImplicit false

namespace Stencil.Text

/-- Line feed, vertical tab, form feed, carriage return, next line, line and paragraph separator. -/
def isLineEnd (c : Char) : Bool :=
  (10 ≤ c.toNat && c.toNat ≤ 13) || c.toNat = 0x85 || c.toNat = 0x2028 || c.toNat = 0x2029

def consLine (c : Char) : List (List Char) → List (List Char)
  | [] => [[c]]
  | l :: ls => (c :: l) :: ls

def lines : List Char → List (List Char)
  | [] => []
  | '\r' :: '\n' :: cs => ['\r', '\n'] :: lines cs
  | c :: cs => if isLineEnd c then [c] :: lines cs else consLine c (lines cs)

theorem consLine_flatten (c : Char) (ls : List (List Char)) :
    (consLine c ls).flatten = c :: ls.flatten := by
  cases ls <;> simp [consLine]

@[simp] theorem lines_flatten (cs : List Char) : (lines cs).flatten = cs := by
  fun_induction lines cs with
  | case1 => rfl
  | case2 cs ih => simp [ih]
  | case3 c cs _ _ ih => simp [ih]
  | case4 c cs _ _ ih => rw [consLine_flatten, ih]

/-- A position in a text: the lines in front of its line, and the characters in front of it there. -/
structure Place where
  row : Nat
  column : Nat
  line : List Char
  deriving DecidableEq, Repr

/-- The place of the position in the first line that reaches beyond it. The end of the text belongs
to the last line. -/
def placeIn : List (List Char) → Nat → Nat → Option Place
  | [], row, n => if n = 0 then some ⟨row, 0, []⟩ else none
  | [l], row, n => if n ≤ l.length then some ⟨row, n, l⟩ else none
  | l :: m :: ls, row, n =>
    if n < l.length then some ⟨row, n, l⟩ else placeIn (m :: ls) (row + 1) (n - l.length)

def place? (cs : List Char) (n : Nat) : Option Place := placeIn (lines cs) 0 n

theorem placeIn_isSome_iff (ls : List (List Char)) (row n : Nat) :
    (placeIn ls row n).isSome ↔ n ≤ ls.flatten.length := by
  fun_induction placeIn ls row n with
  | case1 => simp
  | case2 row n h => simp [h]
  | case3 l row n h => simpa using h
  | case4 l row n h => simpa using h
  | case5 l m ls row n h => simp; omega
  | case6 l m ls row n h ih => rw [ih]; simp; omega

theorem place?_isSome_iff (cs : List Char) (n : Nat) :
    (place? cs n).isSome ↔ n ≤ cs.length := by
  rw [place?, placeIn_isSome_iff, lines_flatten]

end Stencil.Text
