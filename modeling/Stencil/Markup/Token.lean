import Stencil.Text.Quoted
import Stencil.Text.Span
set_option autoImplicit false

namespace Stencil.Markup

inductive Directive where
  | print
  | ifStart
  | elseIf
  | elsePart
  | endIf
  | forStart
  | endFor
  | embed
  deriving DecidableEq, Repr

namespace Directive

def name : Directive → String
  | .print => "print"
  | .ifStart => "if"
  | .elseIf => "elseif"
  | .elsePart => "else"
  | .endIf => "endif"
  | .forStart => "for"
  | .endFor => "endfor"
  | .embed => "include"

def all : List Directive :=
  [.print, .ifStart, .elseIf, .elsePart, .endIf, .forStart, .endFor, .embed]

def ofName? (name : String) : Option Directive := all.find? fun d => d.name = name

theorem ofName?_name (d : Directive) : ofName? d.name = some d := by cases d <;> decide

end Directive

structure Payload where
  text : String
  offset : Nat
  deriving DecidableEq, Repr

inductive Token where
  | literal (text : String)
  | print (payload : Payload)
  | ifStart (guard : Payload)
  | elseIf (guard : Payload)
  | elsePart
  | endIf
  | forStart (index value : String) (collection : Payload)
  | endFor
  | embed (path : String) (context : Option Payload)
  deriving DecidableEq, Repr

namespace Token

def directive? : Token → Option Directive
  | .literal _ => none
  | .print _ => some .print
  | .ifStart _ => some .ifStart
  | .elseIf _ => some .elseIf
  | .elsePart => some .elsePart
  | .endIf => some .endIf
  | .forStart .. => some .forStart
  | .endFor => some .endFor
  | .embed .. => some .embed

def describe : Token → String
  | .literal text => "literal " ++ Text.quoted text
  | .print p => "print \x60" ++ p.text ++ "\x60"
  | .ifStart p => "if \x60" ++ p.text ++ "\x60"
  | .elseIf p => "elseif \x60" ++ p.text ++ "\x60"
  | .elsePart => "else"
  | .endIf => "endif"
  | .forStart i v p => "for " ++ i ++ ", " ++ v ++ " in \x60" ++ p.text ++ "\x60"
  | .endFor => "endfor"
  | .embed path (some p) => "include " ++ path ++ " \x60" ++ p.text ++ "\x60"
  | .embed path none => "include " ++ path

end Token

/-- A token and the bytes of the source that it covers. -/
structure Piece where
  token : Token
  span : Span
  deriving DecidableEq, Repr

end Stencil.Markup
