import Stencil.Expr.Parser
set_option autoImplicit false

/-!
# The grammar of expressions

Which rows of tokens are expressions, and which trees they stand for, rule by rule and apart from the
parser:

    expr        := or ( "?" expr ":" expr )?
    or          := and ( "||" and )*
    and         := equality ( "&&" equality )*
    equality    := comparison ( ( "==" | "!=" | "===" | "!==" ) comparison )*
    comparison  := sum ( ( "<" | "<=" | ">" | ">=" ) sum )*
    sum         := product ( ( "+" | "-" ) product )*
    product     := unary ( ( "*" | "/" | "%" ) unary )*
    unary       := ( "!" | "-" | "+" )* access
    access      := atom ( "." ident | "." ident "(" items ")" | "[" expr "]" )*
    atom        := literal | ident | ident "(" items ")" | "[" items "]" | "{" entries "}"
                 | "(" expr ")"
    items       := ( expr ( "," expr )* ","? )?
    entries     := ( entry ( "," entry )* ","? )?
    entry       := ( ident | string ) ":" expr | ident
-/

namespace Stencil.Expr

inductive Category where
  | expr
  | or
  | and
  | equality
  | comparison
  | sum
  | product
  | unary
  | access
  | atom
  deriving DecidableEq, Repr

namespace Category

def next : Category → Category
  | .expr => .or
  | .or => .and
  | .and => .equality
  | .equality => .comparison
  | .comparison => .sum
  | .sum => .product
  | .product => .unary
  | .unary => .access
  | .access | .atom => .atom

def operators : Category → List (Symbol × BinaryOp)
  | .or => [(.or, .or)]
  | .and => [(.and, .and)]
  | .equality =>
    [(.eq, .eq), (.notEq, .notEq), (.strictEq, .strictEq), (.strictNotEq, .strictNotEq)]
  | .comparison =>
    [(.less, .less), (.lessOrEqual, .lessOrEqual), (.greater, .greater),
      (.greaterOrEqual, .greaterOrEqual)]
  | .sum => [(.plus, .add), (.minus, .sub)]
  | .product => [(.star, .mul), (.slash, .div), (.percent, .rem)]
  | .expr | .unary | .access | .atom => []

def signs : List (Symbol × UnaryOp) := [(.bang, .not), (.minus, .neg), (.plus, .pos)]

def level : Category → Nat
  | .expr => 0
  | .or => 1
  | .and => 2
  | .equality => 3
  | .comparison => 4
  | .sum => 5
  | .product => 6
  | .unary => 7
  | .access => 8
  | .atom => 9

theorem level_le_nine (c : Category) : c.level ≤ 9 := by cases c <;> decide

theorem level_next {c : Category} (h : c.level < 9) : c.next.level = c.level + 1 := by
  cases c <;> first | rfl | exact absurd h (by decide)

theorem level_injective {c d : Category} (h : c.level = d.level) : c = d := by
  cases c <;> cases d <;> first | rfl | exact absurd h (by decide)

theorem binaryOp?_of_mem_operators {c : Category} {s : Symbol} {op : BinaryOp}
    (h : (s, op) ∈ c.operators) : State.binaryOp? s = some op ∧ op.level = c.level := by
  have hall : ∀ p ∈ c.operators, State.binaryOp? p.1 = some p.2 ∧ p.2.level = c.level := by
    cases c <;> decide
  exact hall _ h

theorem exists_mem_operators {s : Symbol} {op : BinaryOp} (h : State.binaryOp? s = some op) :
    ∃ c : Category, (s, op) ∈ c.operators := by
  cases s <;> cases h
  case star | slash | percent => exact ⟨.product, by decide⟩
  case plus | minus => exact ⟨.sum, by decide⟩
  case lessOrEqual | greaterOrEqual | less | greater => exact ⟨.comparison, by decide⟩
  case strictEq | strictNotEq | eq | notEq => exact ⟨.equality, by decide⟩
  case and => exact ⟨.and, by decide⟩
  case or => exact ⟨.or, by decide⟩

theorem unaryOp?_eq_some_iff {s : Symbol} {op : UnaryOp} :
    State.unaryOp? s = some op ↔ (s, op) ∈ signs := by
  cases s <;> cases op <;> decide

end Category

/-- What a row of tokens can be, with what it then stands for. -/
inductive Phrase where
  | of (c : Category) (e : Expr)
  | items (es : List Expr)
  | entry (key : String) (e : Expr)
  | entries (xs : List (String × Expr))

/-- The rules of the grammar. Behind the comma of a list there may be nothing. -/
inductive Derives : Phrase → List Token → Prop where
  | operand {c : Category} {e : Expr} {ts : List Token} :
    c ≠ .atom → Derives (.of c.next e) ts → Derives (.of c e) ts
  | cond {test yes no : Expr} {ts us vs : List Token} :
    Derives (.of .or test) ts → Derives (.of .expr yes) us → Derives (.of .expr no) vs →
    Derives (.of .expr (.cond test yes no))
      (ts ++ .symbol .question :: (us ++ .symbol .colon :: vs))
  | binary {c : Category} {s : Symbol} {op : BinaryOp} {lhs rhs : Expr} {ts us : List Token} :
    (s, op) ∈ c.operators → Derives (.of c lhs) ts → Derives (.of c.next rhs) us →
    Derives (.of c (.binary op lhs rhs)) (ts ++ .symbol s :: us)
  | unary {s : Symbol} {op : UnaryOp} {e : Expr} {ts : List Token} :
    (s, op) ∈ Category.signs → Derives (.of .unary e) ts →
    Derives (.of .unary (.unary op e)) (.symbol s :: ts)
  | member {e : Expr} {property : String} {ts : List Token} :
    Derives (.of .access e) ts →
    Derives (.of .access (.member e property)) (ts ++ [.symbol .dot, .ident property])
  | method {e : Expr} {name : String} {args : List Expr} {ts us : List Token} :
    Derives (.of .access e) ts → Derives (.items args) us →
    Derives (.of .access (.method e name args))
      (ts ++ .symbol .dot :: .ident name :: .symbol .parenOpen :: (us ++ [.symbol .parenClose]))
  | index {e i : Expr} {ts us : List Token} :
    Derives (.of .access e) ts → Derives (.of .expr i) us →
    Derives (.of .access (.index e i))
      (ts ++ .symbol .bracketOpen :: (us ++ [.symbol .bracketClose]))
  | null : Derives (.of .atom (.literal .null)) [.keyword .null]
  | true : Derives (.of .atom (.literal (.bool true))) [.keyword .true]
  | false : Derives (.of .atom (.literal (.bool false))) [.keyword .false]
  | number (x : Binary64) : Derives (.of .atom (.literal (.number x))) [.number x]
  | string (s : String) : Derives (.of .atom (.literal (.string s))) [.string s]
  | ident (name : String) : Derives (.of .atom (.ident name)) [.ident name]
  | call {name : String} {args : List Expr} {ts : List Token} :
    Derives (.items args) ts →
    Derives (.of .atom (.call name args))
      (.ident name :: .symbol .parenOpen :: (ts ++ [.symbol .parenClose]))
  | array {es : List Expr} {ts : List Token} :
    Derives (.items es) ts →
    Derives (.of .atom (.array es)) (.symbol .bracketOpen :: (ts ++ [.symbol .bracketClose]))
  | object {xs : List (String × Expr)} {ts : List Token} :
    Derives (.entries xs) ts →
    Derives (.of .atom (.object xs)) (.symbol .braceOpen :: (ts ++ [.symbol .braceClose]))
  | group {e : Expr} {ts : List Token} :
    Derives (.of .expr e) ts →
    Derives (.of .atom e) (.symbol .parenOpen :: (ts ++ [.symbol .parenClose]))
  | noItems : Derives (.items []) []
  | item {e : Expr} {ts : List Token} : Derives (.of .expr e) ts → Derives (.items [e]) ts
  | items {e : Expr} {es : List Expr} {ts us : List Token} :
    Derives (.of .expr e) ts → Derives (.items es) us →
    Derives (.items (e :: es)) (ts ++ .symbol .comma :: us)
  | named {key : String} {e : Expr} {ts : List Token} :
    Derives (.of .expr e) ts → Derives (.entry key e) (.ident key :: .symbol .colon :: ts)
  | quoted {key : String} {e : Expr} {ts : List Token} :
    Derives (.of .expr e) ts → Derives (.entry key e) (.string key :: .symbol .colon :: ts)
  | shorthand (key : String) : Derives (.entry key (.ident key)) [.ident key]
  | noEntries : Derives (.entries []) []
  | oneEntry {key : String} {e : Expr} {ts : List Token} :
    Derives (.entry key e) ts → Derives (.entries [(key, e)]) ts
  | entries {key : String} {e : Expr} {xs : List (String × Expr)} {ts us : List Token} :
    Derives (.entry key e) ts → Derives (.entries xs) us →
    Derives (.entries ((key, e) :: xs)) (ts ++ .symbol .comma :: us)

theorem Derives.loosen {c d : Category} {e : Expr} {ts : List Token} (h : Derives (.of d e) ts)
    (hl : c.level ≤ d.level) : Derives (.of c e) ts := by
  obtain ⟨n, hn⟩ := Nat.exists_eq_add_of_le hl
  induction n generalizing c with
  | zero => rwa [Category.level_injective (by omega : c.level = d.level)]
  | succ n ih =>
    have hd := d.level_le_nine
    have hc := Category.level_next (by omega : c.level < 9)
    refine .operand ?_ (ih (by omega) (by omega))
    rintro rfl
    have ha : Category.atom.level = 9 := rfl
    omega

theorem Derives.whole {c : Category} {e : Expr} {ts : List Token} (h : Derives (.of c e) ts) :
    Derives (.of .expr e) ts := h.loosen (Nat.zero_le _)

theorem Derives.not_mem {p : Phrase} {ts : List Token} (h : Derives p ts) :
    .keyword .in ∉ ts ∧ ∀ text, .error text ∉ ts := by
  induction h <;> simp_all

end Stencil.Expr
