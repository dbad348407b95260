import Stencil.Eval.Error
import Stencil.Markup.Error
set_option autoImplicit false

namespace Stencil

inductive IncludeError where
  | notFound (name : String)
  | compile (name : String) (cause : CompileError)
  | depthExceeded (name : String) (limit : Nat)
  deriving DecidableEq, Repr

def IncludeError.ofCompile (path : String) : CompileError → IncludeError
  | .notFound name => .notFound name
  | cause => .compile path cause

def IncludeError.message : IncludeError → String
  | .notFound n => "included template not found: " ++ n
  | .compile n cause => "included template '" ++ n ++ "' failed to compile: " ++ cause.message
  | .depthExceeded n limit =>
    "include depth limit of " ++ Decimal.natText limit ++ " exceeded at '" ++ n ++ "'"

inductive Error where
  | compile (e : CompileError)
  | render (e : RenderError)
  | notIterable (kind : Kind)
  | embed (e : IncludeError)
  deriving DecidableEq, Repr

def notIterableMessage (k : Kind) : String := "cannot iterate over a value of type " ++ k.name

def Error.message : Error → String
  | .compile e => "compile error: " ++ e.message
  | .render e => "render error: " ++ e.message
  | .notIterable k => "iteration error: " ++ notIterableMessage k
  | .embed e => "include error: " ++ e.message

end Stencil
