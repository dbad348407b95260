import Stencil.Expr.Token
set_option autoImplicit false

namespace Stencil.Expr

inductive Expectation where
  | symbol (s : Symbol)
  | endOfText
  deriving DecidableEq, Repr

def Expectation.describe : Expectation → String
  | .symbol s => s.describe
  | .endOfText => "end of expression"

/-- The token found, `none` at the end of the text, and what was expected in its place. -/
structure SyntaxError where
  span : Span
  found : Option Token
  expected : List Expectation
  deriving DecidableEq, Repr

namespace SyntaxError

def message (e : SyntaxError) : String :=
  "Unexpected " ++ match e.found with
    | some token => token.describe
    | none => "end of expression"

def text (e : SyntaxError) : String := "Parse error at " ++ e.span.text ++ ": " ++ e.message

def expectedTexts (e : SyntaxError) : List String := e.expected.map Expectation.describe

/-- The error of the same text once `offset` bytes are put in front of it. -/
def shift (e : SyntaxError) (offset : Nat) : SyntaxError := { e with span := e.span.shift offset }

end SyntaxError

end Stencil.Expr
