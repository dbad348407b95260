import Stencil.Markup.Token
set_option autoImplicit false

namespace Stencil

open Markup

inductive Imbalance where
  | elseIfBehindElse
  | secondElse
  | noOpenIf
  | noOpenFor
  | endForFirst
  | endIfFirst
  | missingEndIf
  | missingEndFor
  deriving DecidableEq, Repr

def Imbalance.reason : Imbalance → String
  | .elseIfBehindElse => "\x60elseif\x60 after \x60else\x60"
  | .secondElse => "second \x60else\x60 in one chain"
  | .noOpenIf => "no open \x60if\x60"
  | .noOpenFor => "no open \x60for\x60"
  | .endForFirst => "expected \x60endfor\x60 first"
  | .endIfFirst => "expected \x60endif\x60 first"
  | .missingEndIf => "missing \x60endif\x60"
  | .missingEndFor => "missing \x60endfor\x60"

inductive CompileError where
  | invalidFor (payload : String) (span : Span)
  | invalidInclude (span : Span)
  | unknownDirective (marker : String) (span : Span)
  | unexpectedPayload (directive : Directive) (payload : String) (span : Span)
  | unterminated (span : Span)
  | expectedClose (span : Span)
  | unbalanced (directive : Directive) (imbalance : Imbalance) (span : Span)
  | notFound (name : String)
  deriving DecidableEq, Repr

namespace CompileError

def span? : CompileError → Option Span
  | .invalidFor _ s | .invalidInclude s | .unknownDirective _ s | .unexpectedPayload _ _ s
  | .unterminated s | .expectedClose s | .unbalanced _ _ s => some s
  | .notFound _ => none

def message : CompileError → String
  | .invalidFor p _ => "invalid for-expression: \x60" ++ p ++ "\x60"
  | .invalidInclude _ => "invalid include: missing template path"
  | .unknownDirective m _ => "unknown directive \x60" ++ m ++ "\x60"
  | .unexpectedPayload d p _ =>
    "directive \x60" ++ d.name ++ "\x60 takes no payload, found \x60" ++ p ++ "\x60"
  | .unterminated _ => "unterminated directive"
  | .expectedClose _ => "expected \x60\x7d\x60 to close directive"
  | .unbalanced d i _ => "unbalanced \x60" ++ d.name ++ "\x60: " ++ i.reason
  | .notFound n => "template not found: " ++ n

end CompileError

end Stencil
