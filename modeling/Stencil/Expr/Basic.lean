import Stencil.Number.Binary64
set_option autoImplicit false

namespace Stencil

inductive Literal where
  | null
  | bool (b : Bool)
  | number (value : Binary64)
  | string (text : String)
  deriving DecidableEq, Repr

inductive UnaryOp where
  | not
  | neg
  | pos
  deriving DecidableEq, Repr

inductive BinaryOp where
  | add
  | sub
  | mul
  | div
  | rem
  | eq
  | notEq
  | strictEq
  | strictNotEq
  | less
  | lessOrEqual
  | greater
  | greaterOrEqual
  | and
  | or
  deriving DecidableEq, Repr

def UnaryOp.spelling : UnaryOp → String
  | .not => "!"
  | .neg => "-"
  | .pos => "+"

def BinaryOp.spelling : BinaryOp → String
  | .add => "+"
  | .sub => "-"
  | .mul => "*"
  | .div => "/"
  | .rem => "%"
  | .eq => "=="
  | .notEq => "!="
  | .strictEq => "==="
  | .strictNotEq => "!=="
  | .less => "<"
  | .lessOrEqual => "<="
  | .greater => ">"
  | .greaterOrEqual => ">="
  | .and => "&&"
  | .or => "||"

/-- How tightly an operator binds: a larger level binds tighter, and every level groups to the
left. -/
def BinaryOp.level : BinaryOp → Nat
  | .or => 1
  | .and => 2
  | .eq | .notEq | .strictEq | .strictNotEq => 3
  | .less | .lessOrEqual | .greater | .greaterOrEqual => 4
  | .add | .sub => 5
  | .mul | .div | .rem => 6

theorem BinaryOp.level_pos (op : BinaryOp) : 0 < op.level := by cases op <;> decide

theorem BinaryOp.level_lt_seven (op : BinaryOp) : op.level < 7 := by cases op <;> decide

inductive Expr where
  | literal (value : Literal)
  | ident (name : String)
  | array (items : List Expr)
  | object (entries : List (String × Expr))
  | member (object : Expr) (property : String)
  | index (object : Expr) (index : Expr)
  | call (function : String) (args : List Expr)
  | method (receiver : Expr) (method : String) (args : List Expr)
  | unary (op : UnaryOp) (operand : Expr)
  | binary (op : BinaryOp) (lhs rhs : Expr)
  | cond (test yes no : Expr)

namespace Expr

instance : Inhabited Expr := ⟨.literal .null⟩

mutual

def beq : Expr → Expr → Bool
  | .literal a, .literal b => a = b
  | .ident a, .ident b => a = b
  | .array xs, .array ys => beqItems xs ys
  | .object xs, .object ys => beqEntries xs ys
  | .member x a, .member y b => beq x y && a = b
  | .index x i, .index y j => beq x y && beq i j
  | .call f xs, .call g ys => f = g && beqItems xs ys
  | .method x f xs, .method y g ys => beq x y && f = g && beqItems xs ys
  | .unary a x, .unary b y => a = b && beq x y
  | .binary a x x', .binary b y y' => a = b && beq x y && beq x' y'
  | .cond x x' x'', .cond y y' y'' => beq x y && beq x' y' && beq x'' y''
  | _, _ => false

def beqItems : List Expr → List Expr → Bool
  | [], [] => true
  | x :: xs, y :: ys => beq x y && beqItems xs ys
  | _, _ => false

def beqEntries : List (String × Expr) → List (String × Expr) → Bool
  | [], [] => true
  | (k, x) :: xs, (l, y) :: ys => k = l && beq x y && beqEntries xs ys
  | _, _ => false

end

instance : BEq Expr := ⟨beq⟩

end Expr

end Stencil
