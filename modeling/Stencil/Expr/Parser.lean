import Stencil.Expr.Basic
import Stencil.Expr.Lexer
import Stencil.Expr.SyntaxError
set_option autoImplicit false

/-!
# Reading expressions

The parser goes through the tokens once. Its state holds the constructs that are open, innermost
first, and what may come next, so each state knows the symbols that it takes. An open operator is
closed as soon as a token comes that binds no tighter. Main statements: `step_expected` and
`finish_expected`, a symbol or the end of the text is listed if and only if it can come next.

The grammar, loosest first: the conditional, which nests to the right; the binary levels of
`BinaryOp.level`, each grouping to the left; signs and negation; member, method and index access;
and the literals, names, calls, arrays, objects and groups. A comma may end a list that is not empty.
-/

namespace Stencil

namespace Expr

inductive Listing where
  | array
  | call (function : String)
  | method (receiver : Expr) (name : String)

namespace Listing

def close : Listing → Symbol
  | .array => .bracketClose
  | .call _ | .method _ _ => .parenClose

def build (items : List Expr) : Listing → Expr
  | .array => .array items
  | .call f => .call f items
  | .method x m => .method x m items

end Listing

inductive Frame where
  | unary (op : UnaryOp)
  | binary (lhs : Expr) (op : BinaryOp)
  | consequent (test : Expr)
  | alternative (test yes : Expr)
  | group
  | index (base : Expr)
  | listing (kind : Listing) (items : List Expr)
  | entry (entries : List (String × Expr)) (key : String)

/-- What may come next: an operand; what follows an operand, which a parenthesis may turn into a
call; a property behind a point; a key of an object; what follows a key, which may stand alone if
it is a name. -/
inductive Mode where
  | operand
  | complete (e : Expr) (callee : Option Listing)
  | property (base : Expr)
  | key (entries : List (String × Expr))
  | afterKey (entries : List (String × Expr)) (key : String) (alone : Bool)

structure State where
  mode : Mode
  frames : List Frame

namespace State

def start : State := ⟨.operand, []⟩

/-- Closes the operators that bind no looser than `level` around an operand. The alternative of a
conditional has level zero. -/
def settle (level : Nat) (e : Expr) : List Frame → Expr × List Frame
  | .unary op :: fs => settle level (.unary op e) fs
  | .binary lhs op :: fs =>
    if level ≤ op.level then settle level (.binary op lhs e) fs else (e, .binary lhs op :: fs)
  | .alternative test yes :: fs =>
    if level = 0 then settle level (.cond test yes e) fs else (e, .alternative test yes :: fs)
  | fs => (e, fs)

def enclosing : List Frame → Option Frame
  | .unary _ :: fs | .binary _ _ :: fs | .alternative _ _ :: fs => enclosing fs
  | f :: _ => some f
  | [] => none

def binaryOp? : Symbol → Option BinaryOp
  | .star => some .mul
  | .slash => some .div
  | .percent => some .rem
  | .plus => some .add
  | .minus => some .sub
  | .lessOrEqual => some .lessOrEqual
  | .greaterOrEqual => some .greaterOrEqual
  | .less => some .less
  | .greater => some .greater
  | .strictEq => some .strictEq
  | .strictNotEq => some .strictNotEq
  | .eq => some .eq
  | .notEq => some .notEq
  | .and => some .and
  | .or => some .or
  | _ => none

def unaryOp? : Symbol → Option UnaryOp
  | .bang => some .not
  | .minus => some .neg
  | .plus => some .pos
  | _ => none

def literal? : Token → Option Literal
  | .keyword .null => some .null
  | .keyword .true => some (.bool true)
  | .keyword .false => some (.bool false)
  | .number x => some (.number x)
  | .string s => some (.string s)
  | _ => none

def operandSymbol (fs : List Frame) (s : Symbol) : Option State :=
  match unaryOp? s with
  | some op => some ⟨.operand, .unary op :: fs⟩
  | none =>
    match s with
    | .bracketOpen => some ⟨.operand, .listing .array [] :: fs⟩
    | .braceOpen => some ⟨.key [], fs⟩
    | .parenOpen => some ⟨.operand, .group :: fs⟩
    | s =>
      match fs with
      | .listing kind items :: fs =>
        if s = kind.close then some ⟨.complete (kind.build items.reverse) none, fs⟩ else none
      | _ => none

/-- A symbol that goes on with or ends the construct around a whole operand. -/
def closing (e : Expr) (s : Symbol) : List Frame → Option State
  | .consequent test :: fs => if s = .colon then some ⟨.operand, .alternative test e :: fs⟩ else none
  | .group :: fs => if s = .parenClose then some ⟨.complete e none, fs⟩ else none
  | .index base :: fs =>
    if s = .bracketClose then some ⟨.complete (.index base e) none, fs⟩ else none
  | .listing kind items :: fs =>
    if s = .comma then some ⟨.operand, .listing kind (e :: items) :: fs⟩
    else if s = kind.close then some ⟨.complete (kind.build (e :: items).reverse) none, fs⟩
    else none
  | .entry entries key :: fs =>
    if s = .comma then some ⟨.key (entries ++ [(key, e)]), fs⟩
    else if s = .braceClose then some ⟨.complete (.object (entries ++ [(key, e)])) none, fs⟩
    else none
  | _ => none

def operatorSymbol (e : Expr) (callee : Option Listing) (fs : List Frame) (s : Symbol) :
    Option State :=
  match binaryOp? s with
  | some op =>
    let (lhs, fs) := settle op.level e fs
    some ⟨.operand, .binary lhs op :: fs⟩
  | none =>
    match s with
    | .parenOpen => callee.map fun kind => ⟨.operand, .listing kind [] :: fs⟩
    | .dot => some ⟨.property e, fs⟩
    | .bracketOpen => some ⟨.operand, .index e :: fs⟩
    | .question =>
      let (test, fs) := settle 1 e fs
      some ⟨.operand, .consequent test :: fs⟩
    | s =>
      let (e, fs) := settle 0 e fs
      closing e s fs

/-- The state behind one more token, `none` if the token cannot stand there. -/
def step (st : State) (t : Token) : Option State :=
  match st.mode, t with
  | .operand, .symbol s => operandSymbol st.frames s
  | .operand, .ident n => some ⟨.complete (.ident n) (some (.call n)), st.frames⟩
  | .operand, t => (literal? t).map fun l => ⟨.complete (.literal l) none, st.frames⟩
  | .complete e callee, .symbol s => operatorSymbol e callee st.frames s
  | .property e, .ident n => some ⟨.complete (.member e n) (some (.method e n)), st.frames⟩
  | .key entries, .ident n => some ⟨.afterKey entries n true, st.frames⟩
  | .key entries, .string s => some ⟨.afterKey entries s false, st.frames⟩
  | .key entries, .symbol .braceClose => some ⟨.complete (.object entries) none, st.frames⟩
  | .afterKey entries k _, .symbol .colon => some ⟨.operand, .entry entries k :: st.frames⟩
  | .afterKey entries k true, .symbol .comma => some ⟨.key (entries ++ [(k, .ident k)]), st.frames⟩
  | .afterKey entries k true, .symbol .braceClose =>
    some ⟨.complete (.object (entries ++ [(k, .ident k)])) none, st.frames⟩
  | _, _ => none

def finish (st : State) : Option Expr :=
  match st.mode with
  | .complete e _ =>
    match settle 0 e st.frames with
    | (e, []) => some e
    | _ => none
  | _ => none

def frameClosers : Frame → List Expectation
  | .consequent _ => [.symbol .colon]
  | .group => [.symbol .parenClose]
  | .index _ => [.symbol .bracketClose]
  | .listing kind _ => [.symbol .comma, .symbol kind.close]
  | .entry _ _ => [.symbol .comma, .symbol .braceClose]
  | .unary _ | .binary _ _ | .alternative _ _ => []

def closers (fs : List Frame) : List Expectation :=
  match enclosing fs with
  | none => [.endOfText]
  | some f => frameClosers f

def operators : List Symbol :=
  [.star, .slash, .percent, .plus, .minus, .lessOrEqual, .greaterOrEqual, .less, .greater,
    .strictEq, .strictNotEq, .eq, .notEq, .and, .or]

def openers : List Symbol := [.bang, .minus, .plus, .bracketOpen, .braceOpen, .parenOpen]

/-- All symbols that the state takes, and whether the text may end. -/
def expected (st : State) : List Expectation :=
  match st.mode with
  | .operand =>
    openers.map .symbol ++ match st.frames with
      | .listing kind _ :: _ => [.symbol kind.close]
      | _ => []
  | .complete _ callee =>
    (if callee.isSome then [.symbol .parenOpen] else []) ++
      [.symbol .dot, .symbol .bracketOpen] ++ operators.map .symbol ++ [.symbol .question] ++
      closers st.frames
  | .property _ => []
  | .key _ => [.symbol .braceClose]
  | .afterKey _ _ alone =>
    .symbol .colon :: if alone then [.symbol .comma, .symbol .braceClose] else []

theorem head?_settle_zero (e : Expr) (fs : List Frame) :
    (settle 0 e fs).2.head? = enclosing fs := by
  fun_induction settle 0 e fs with
  | case1 e op fs ih => simpa [enclosing] using ih
  | case2 e lhs op fs h ih => simpa [enclosing] using ih
  | case3 e lhs op fs h => simp at h
  | case4 e test yes fs h ih => simpa [enclosing] using ih
  | case5 e test yes fs h => simp at h
  | case6 e fs h1 h2 h3 =>
    cases fs with
    | nil => rfl
    | cons f fs => cases f <;> simp_all [enclosing]

theorem closing_isSome_iff (e : Expr) (s : Symbol) (fs : List Frame) :
    (closing e s fs).isSome ↔ ∃ f, fs.head? = some f ∧ .symbol s ∈ frameClosers f := by
  cases fs with
  | nil => simp [closing]
  | cons f fs =>
    cases f <;> simp [closing, frameClosers]
    all_goals split <;> simp_all

theorem mem_closers_iff (s : Symbol) (fs : List Frame) :
    .symbol s ∈ closers fs ↔ ∃ f, enclosing fs = some f ∧ .symbol s ∈ frameClosers f := by
  unfold closers
  cases enclosing fs <;> simp

theorem closing_settle_isSome_iff (e : Expr) (s : Symbol) (fs : List Frame) :
    (closing (settle 0 e fs).1 s (settle 0 e fs).2).isSome ↔ .symbol s ∈ closers fs := by
  rw [closing_isSome_iff, head?_settle_zero, mem_closers_iff]

theorem operandSymbol_isSome_iff (fs : List Frame) (s : Symbol) :
    (operandSymbol fs s).isSome ↔ .symbol s ∈ expected ⟨.operand, fs⟩ := by
  match fs with
  | [] => cases s <;> simp [operandSymbol, unaryOp?, expected, openers]
  | f :: fs =>
    cases f with
    | listing kind items =>
      cases s <;> cases kind <;>
        simp [operandSymbol, unaryOp?, expected, openers, Listing.close]
    | _ => cases s <;> simp [operandSymbol, unaryOp?, expected, openers]

theorem parenOpen_not_mem_closers (fs : List Frame) : .symbol .parenOpen ∉ closers fs := by
  rw [mem_closers_iff]
  rintro ⟨f, -, hf⟩
  cases f with
  | listing kind items => cases kind <;> simp [frameClosers, Listing.close] at hf
  | _ => simp [frameClosers] at hf

theorem operatorSymbol_isSome_iff (e : Expr) (callee : Option Listing) (fs : List Frame)
    (s : Symbol) :
    (operatorSymbol e callee fs s).isSome ↔ .symbol s ∈ expected ⟨.complete e callee, fs⟩ := by
  have h := closing_settle_isSome_iff e s fs
  have hp := parenOpen_not_mem_closers fs
  cases s with
  | parenOpen => cases callee <;> simp_all [operatorSymbol, binaryOp?, expected, operators]
  | _ => cases callee <;> simp_all [operatorSymbol, binaryOp?, expected, operators]

/-- A symbol is listed if and only if it is taken. -/
theorem step_expected (st : State) (s : Symbol) :
    (st.step (.symbol s)).isSome ↔ .symbol s ∈ st.expected := by
  obtain ⟨mode, fs⟩ := st
  cases mode with
  | operand => exact operandSymbol_isSome_iff fs s
  | complete e callee => exact operatorSymbol_isSome_iff e callee fs s
  | property base => simp [step, expected]
  | key entries => cases s <;> simp [step, expected]
  | afterKey entries key alone => cases s <;> cases alone <;> simp [step, expected]

theorem finish_expected (st : State) : st.finish.isSome ↔ .endOfText ∈ st.expected := by
  obtain ⟨mode, fs⟩ := st
  cases mode with
  | complete e callee =>
    have h := head?_settle_zero e fs
    simp only [finish, expected, closers]
    generalize settle 0 e fs = p at h
    obtain ⟨e, fs⟩ := p
    cases fs with
    | nil => simp only [List.head?_nil] at h; simp [← h]
    | cons f fs =>
      simp only [List.head?_cons] at h
      rw [← h]
      cases f <;> cases callee <;> simp [frameClosers, operators]
  | operand =>
    cases fs with
    | nil => simp [finish, expected, openers]
    | cons f fs => cases f <;> simp [finish, expected, openers]
  | property base => simp [finish, expected]
  | key entries => simp [finish, expected]
  | afterKey entries key alone => cases alone <;> simp [finish, expected]

/-- Goes through the lexemes; on a token that cannot stand where it does, the state before it and
the lexeme. -/
def run (st : State) : List Lexeme → Except (State × Lexeme) State
  | [] => .ok st
  | l :: ls =>
    match st.step l.token with
    | some st => st.run ls
    | none => .error (st, l)

end State

/-- Where an error at the end of the text is placed: from the end of the text back to the end of
the last token. -/
def endSpan (length : Nat) (ls : List Lexeme) : Span :=
  ⟨length, (ls.getLast?.map fun l => l.span.stop).getD length⟩

def parseLexemes (length : Nat) (ls : List Lexeme) : Except SyntaxError Expr :=
  match State.start.run ls with
  | .error (st, l) => .error ⟨l.span, some l.token, st.expected⟩
  | .ok st =>
    match st.finish with
    | some e => .ok e
    | none => .error ⟨endSpan length ls, none, st.expected⟩

def parse (text : String) : Except SyntaxError Expr :=
  parseLexemes text.utf8ByteSize (lex text)

end Expr

end Stencil
