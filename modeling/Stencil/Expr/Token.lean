import Stencil.Number.Decimal
import Stencil.Text.Span
set_option autoImplicit false

namespace Stencil.Expr

inductive Keyword where
  | null
  | true
  | false
  | in
  deriving DecidableEq, Repr

def Keyword.spelling : Keyword → String
  | .null => "null"
  | .true => "true"
  | .false => "false"
  | .in => "in"

inductive Symbol where
  | strictEq
  | strictNotEq
  | eq
  | notEq
  | lessOrEqual
  | greaterOrEqual
  | less
  | greater
  | and
  | or
  | bang
  | plus
  | minus
  | star
  | slash
  | percent
  | parenOpen
  | parenClose
  | bracketOpen
  | bracketClose
  | braceOpen
  | braceClose
  | comma
  | colon
  | question
  | dot
  deriving DecidableEq, Repr

namespace Symbol

def spelling : Symbol → String
  | .strictEq => "==="
  | .strictNotEq => "!=="
  | .eq => "=="
  | .notEq => "!="
  | .lessOrEqual => "<="
  | .greaterOrEqual => ">="
  | .less => "<"
  | .greater => ">"
  | .and => "&&"
  | .or => "||"
  | .bang => "!"
  | .plus => "+"
  | .minus => "-"
  | .star => "*"
  | .slash => "/"
  | .percent => "%"
  | .parenOpen => "("
  | .parenClose => ")"
  | .bracketOpen => "["
  | .bracketClose => "]"
  | .braceOpen => "\x7b"
  | .braceClose => "\x7d"
  | .comma => ","
  | .colon => ":"
  | .question => "?"
  | .dot => "."

/-- Every symbol, longer spellings first. -/
def all : List Symbol :=
  [.strictEq, .strictNotEq, .eq, .notEq, .lessOrEqual, .greaterOrEqual, .and, .or, .less, .greater,
    .bang, .plus, .minus, .star, .slash, .percent, .parenOpen, .parenClose, .bracketOpen,
    .bracketClose, .braceOpen, .braceClose, .comma, .colon, .question, .dot]

theorem mem_all (s : Symbol) : s ∈ all := by cases s <;> decide

def operatorName? : Symbol → Option String
  | .strictEq => some "StrictEq"
  | .strictNotEq => some "StrictNotEq"
  | .eq => some "Eq"
  | .notEq => some "NotEq"
  | .lessOrEqual => some "LessOrEqual"
  | .greaterOrEqual => some "GreaterOrEqual"
  | .less => some "Less"
  | .greater => some "Greater"
  | .and => some "And"
  | .or => some "Or"
  | .bang => some "Bang"
  | .plus => some "Plus"
  | .minus => some "Minus"
  | .star => some "Star"
  | .slash => some "Slash"
  | .percent => some "Percent"
  | _ => none

def describe (s : Symbol) : String :=
  match s.operatorName? with
  | some word => "operator " ++ word
  | none => "'" ++ s.spelling ++ "'"

end Symbol

inductive Token where
  | keyword (word : Keyword)
  | symbol (symbol : Symbol)
  | ident (name : String)
  | string (text : String)
  | number (value : Binary64)
  | error (text : String)
  deriving DecidableEq, Repr

def Token.describe : Token → String
  | .keyword k => "keyword '" ++ k.spelling ++ "'"
  | .symbol s => s.describe
  | .ident name => "identifier '" ++ name ++ "'"
  | .string text => "string \"" ++ text ++ "\""
  | .number value => "number " ++ Layout.plain.text value
  | .error text => "'" ++ text ++ "'"

structure Lexeme where
  token : Token
  span : Span
  deriving DecidableEq, Repr

end Stencil.Expr
