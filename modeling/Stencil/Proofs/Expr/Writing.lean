import Stencil.Proofs.Expr.Completeness
set_option autoImplicit false

namespace Stencil

open Stencil.Expr

def Literal.token : Literal → Token
  | .null => .keyword .null
  | .bool true => .keyword .true
  | .bool false => .keyword .false
  | .number x => .number x
  | .string s => .string s

theorem Literal.derives_token (l : Literal) : Derives (.of .atom (.literal l)) [l.token] := by
  cases l with
  | null => exact .null
  | bool b =>
    cases b with
    | false => exact .false
    | true => exact .true
  | number x => exact .number x
  | string s => exact .string s

namespace UnaryOp

def symbol : UnaryOp → Symbol
  | .not => .bang
  | .neg => .minus
  | .pos => .plus

theorem symbol_mem_signs (op : UnaryOp) : (op.symbol, op) ∈ Category.signs := by cases op <;> decide

end UnaryOp

namespace BinaryOp

def symbol : BinaryOp → Symbol
  | .add => .plus
  | .sub => .minus
  | .mul => .star
  | .div => .slash
  | .rem => .percent
  | .eq => .eq
  | .notEq => .notEq
  | .strictEq => .strictEq
  | .strictNotEq => .strictNotEq
  | .less => .less
  | .lessOrEqual => .lessOrEqual
  | .greater => .greater
  | .greaterOrEqual => .greaterOrEqual
  | .and => .and
  | .or => .or

def category : BinaryOp → Category
  | .or => .or
  | .and => .and
  | .eq | .notEq | .strictEq | .strictNotEq => .equality
  | .less | .lessOrEqual | .greater | .greaterOrEqual => .comparison
  | .add | .sub => .sum
  | .mul | .div | .rem => .product

theorem symbol_mem_operators (op : BinaryOp) : (op.symbol, op) ∈ op.category.operators := by
  cases op <;> decide

end BinaryOp

namespace Expr

/-- The tokens of a tree of category `inner` where one of category `outer` is wanted. -/
def enclosed (outer inner : Category) (ts : List Token) : List Token :=
  if outer.level ≤ inner.level then ts else .symbol .parenOpen :: (ts ++ [.symbol .parenClose])

theorem Derives.enclosed {outer inner : Category} {e : Expr} {ts : List Token}
    (h : Derives (.of inner e) ts) : Derives (.of outer e) (enclosed outer inner ts) := by
  unfold Expr.enclosed
  split
  · next hl => exact h.loosen hl
  · exact (Derives.group h.whole).loosen outer.level_le_nine

mutual

/-- The tokens of a tree at a place for this category. The right operand of an operator has a tighter
place than the left one. -/
def written (c : Category) : Expr → List Token
  | .literal l => [l.token]
  | .ident name => [.ident name]
  | .array items => .symbol .bracketOpen :: (writtenItems items ++ [.symbol .bracketClose])
  | .object entries => .symbol .braceOpen :: (writtenEntries entries ++ [.symbol .braceClose])
  | .member x property =>
    enclosed c .access (written .access x ++ [.symbol .dot, .ident property])
  | .index x i =>
    enclosed c .access
      (written .access x ++ .symbol .bracketOpen :: (written .expr i ++ [.symbol .bracketClose]))
  | .call f args =>
    .ident f :: .symbol .parenOpen :: (writtenItems args ++ [.symbol .parenClose])
  | .method x name args =>
    enclosed c .access (written .access x ++ .symbol .dot :: .ident name :: .symbol .parenOpen ::
      (writtenItems args ++ [.symbol .parenClose]))
  | .unary op x => enclosed c .unary (.symbol op.symbol :: written .unary x)
  | .binary op x y =>
    enclosed c op.category
      (written op.category x ++ .symbol op.symbol :: written op.category.next y)
  | .cond test yes no =>
    enclosed c .expr (written .or test ++ .symbol .question ::
      (written .expr yes ++ .symbol .colon :: written .expr no))

def writtenItems : List Expr → List Token
  | [] => []
  | [e] => written .expr e
  | e :: f :: es => written .expr e ++ .symbol .comma :: writtenItems (f :: es)

def writtenEntries : List (String × Expr) → List Token
  | [] => []
  | [(key, e)] => .string key :: .symbol .colon :: written .expr e
  | (key, e) :: x :: xs =>
    .string key :: .symbol .colon :: (written .expr e ++ .symbol .comma :: writtenEntries (x :: xs))

end

mutual

theorem derives_written (c : Category) : ∀ e : Expr, Derives (.of c e) (written c e)
  | .literal l => l.derives_token.loosen c.level_le_nine
  | .ident name => (Derives.ident name).loosen c.level_le_nine
  | .array items => (Derives.array (derives_writtenItems items)).loosen c.level_le_nine
  | .object entries => (Derives.object (derives_writtenEntries entries)).loosen c.level_le_nine
  | .member x _ => (Derives.member (derives_written .access x)).enclosed
  | .index x i => (Derives.index (derives_written .access x) (derives_written .expr i)).enclosed
  | .call _ args => (Derives.call (derives_writtenItems args)).loosen c.level_le_nine
  | .method x _ args =>
    (Derives.method (derives_written .access x) (derives_writtenItems args)).enclosed
  | .unary op x => (Derives.unary op.symbol_mem_signs (derives_written .unary x)).enclosed
  | .binary op x y =>
    (Derives.binary op.symbol_mem_operators (derives_written op.category x)
      (derives_written op.category.next y)).enclosed
  | .cond test yes no =>
    (Derives.cond (derives_written .or test) (derives_written .expr yes)
      (derives_written .expr no)).enclosed

theorem derives_writtenItems : ∀ es : List Expr, Derives (.items es) (writtenItems es)
  | [] => .noItems
  | [e] => .item (derives_written .expr e)
  | e :: f :: es => .items (derives_written .expr e) (derives_writtenItems (f :: es))

theorem derives_writtenEntries :
    ∀ xs : List (String × Expr), Derives (.entries xs) (writtenEntries xs)
  | [] => .noEntries
  | [(_, e)] => .oneEntry (.quoted (derives_written .expr e))
  | (_, e) :: x :: xs =>
    .entries (.quoted (derives_written .expr e)) (derives_writtenEntries (x :: xs))

end

/-- Every tree can be written down, and wherever its tokens stand they are read as that tree. -/
theorem parseLexemes_written (e : Expr) (length : Nat) {ls : List Lexeme}
    (h : ls.map Lexeme.token = written .expr e) : parseLexemes length ls = .ok e :=
  parseLexemes_of_derives (h ▸ derives_written .expr e)

theorem nested_difference_written :
    let e : Expr :=
      .binary .mul (.binary .sub (.ident "a") (.binary .sub (.ident "b") (.ident "c")))
        (.unary .neg (.member (.unary .not
          (.object [("k", .cond (.ident "p") (.literal .null) (.ident "q"))])) "f"))
    let ts : List Token :=
      [.symbol .parenOpen, .ident "a", .symbol .minus, .symbol .parenOpen, .ident "b",
        .symbol .minus, .ident "c", .symbol .parenClose, .symbol .parenClose, .symbol .star,
        .symbol .minus, .symbol .parenOpen, .symbol .bang, .symbol .braceOpen, .string "k",
        .symbol .colon, .ident "p", .symbol .question, .keyword .null, .symbol .colon, .ident "q",
        .symbol .braceClose, .symbol .parenClose, .symbol .dot, .ident "f"]
    written .expr e = ts ∧ parseLexemes 0 (ts.map fun t => ⟨t, ⟨0, 0⟩⟩) = .ok e := by
  intro e ts
  have h : written .expr e = ts := rfl
  exact ⟨h, parseLexemes_written e 0 (by simp [h, Function.comp_def])⟩

end Expr

end Stencil
