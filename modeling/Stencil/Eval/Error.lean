import Stencil.Expr.Basic
import Stencil.Expr.SyntaxError
import Stencil.Value.Basic
set_option autoImplicit false

namespace Stencil

inductive TypeError where
  | member (property : String) (of : Kind)
  | index (of subscript : Kind)
  | sign (of : Kind)
  | add (left right : Kind)
  | arithmetic (op : BinaryOp) (left right : Kind)
  | compare (op : BinaryOp) (left right : Kind)
  deriving DecidableEq, Repr

def TypeError.message : TypeError → String
  | .member p k => "cannot read property '" ++ p ++ "' of " ++ k.name
  | .index k l => "cannot index " ++ k.name ++ " with " ++ l.name
  | .sign k => "cannot negate " ++ k.name
  | .add k l => "cannot add " ++ k.name ++ " and " ++ l.name
  | .arithmetic op k l =>
    "operator '" ++ op.spelling ++ "' needs numbers, found " ++ k.name ++ " and " ++ l.name
  | .compare op k l =>
    "cannot compare " ++ k.name ++ " and " ++ l.name ++ " with '" ++ op.spelling ++ "'"

inductive Origin where
  | literal
  | unary (op : UnaryOp)
  | binary (op : BinaryOp)
  deriving DecidableEq, Repr

def Origin.label : Origin → String
  | .literal => "literal"
  | .unary op => op.spelling
  | .binary op => op.spelling

inductive RenderError where
  | invalidContext (found : Kind)
  | expression (template : Option String) (source : String) (error : Expr.SyntaxError)
  | undefinedVariable (name : String)
  | type (error : TypeError)
  | unprintable (kind : Kind)
  | nonFinite (origin : Origin)
  | unknownFunction (name : String)
  | function (name : String) (message : String)
  deriving DecidableEq, Repr

def unprintableMessage (k : Kind) : String := "cannot print a value of type " ++ k.name

def RenderError.message : RenderError → String
  | .invalidContext k => "context must be an object, found " ++ k.name
  | .expression _ source e => "invalid expression \x60" ++ source ++ "\x60: " ++ e.text
  | .undefinedVariable n => "undefined variable '" ++ n ++ "'"
  | .type e => "type error: " ++ e.message
  | .unprintable k => unprintableMessage k
  | .nonFinite o => "arithmetic produced a non-finite result for \x60" ++ o.label ++ "\x60"
  | .unknownFunction n => "unknown function '" ++ n ++ "'"
  | .function n m => "function '" ++ n ++ "' failed: " ++ m

end Stencil
