import Stencil.Eval.Error
import Stencil.Expr.Parser
import Stencil.Markup.Token
set_option autoImplicit false

namespace Stencil

structure Expression where
  source : String
  offset : Nat
  parsed : Except Expr.SyntaxError Expr

namespace Expression

def compile (source : String) (offset : Nat) : Expression :=
  ⟨source, offset, (Expr.parse source).mapError fun e => e.shift offset⟩

def ofPayload (p : Markup.Payload) : Expression := compile p.text p.offset

def tree (e : Expression) (template : Option String) : Except RenderError Expr :=
  e.parsed.mapError (.expression template e.source)

def isValid (e : Expression) : Bool := e.parsed.isOk

def beq (a b : Expression) : Bool :=
  a.source = b.source && a.offset = b.offset &&
    match a.parsed, b.parsed with
    | .ok x, .ok y => x == y
    | .error x, .error y => x = y
    | _, _ => false

instance : BEq Expression := ⟨beq⟩

end Expression

end Stencil
