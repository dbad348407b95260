import Stencil.Markup.Source
import Stencil.Program.Instruction
set_option autoImplicit false

/-!
# Matching blocks

The tokens of a template are gathered into a tree. Blocks that are open are held innermost first,
each with what it has gathered so far; a directive that does not fit the innermost one is an error.
-/

namespace Stencil

open Markup

/-- A block whose end has not come yet. A chain without a guard is in its last part. -/
inductive Block where
  | chain (arms : List Arm) (guard : Option Expression) (body : List Instruction) (span : Span)
  | loop (index value : String) (collection : Expression) (body : List Instruction) (span : Span)

structure Blocks where
  root : List Instruction
  stack : List Block

namespace Blocks

def empty : Blocks := ⟨[], []⟩

def add (b : Blocks) (i : Instruction) : Blocks :=
  match b.stack with
  | [] => { b with root := b.root ++ [i] }
  | .chain arms guard body span :: rest =>
    { b with stack := .chain arms guard (body ++ [i]) span :: rest }
  | .loop index value collection body span :: rest =>
    { b with stack := .loop index value collection (body ++ [i]) span :: rest }

/-- Ends the arm of the innermost chain and begins one with another guard; `again` is the error of
a chain that is in its last part. -/
def nextArm (b : Blocks) (d : Directive) (again : Imbalance) (guard : Option Expression)
    (span : Span) : Except CompileError Blocks :=
  match b.stack with
  | .chain arms (some g) body at_ :: rest =>
    .ok { b with stack := .chain (arms ++ [.mk (some g) body]) guard [] at_ :: rest }
  | .chain _ none _ _ :: _ => .error (.unbalanced d again span)
  | _ => .error (.unbalanced d .noOpenIf span)

def endIf (b : Blocks) (span : Span) : Except CompileError Blocks :=
  match b.stack with
  | .chain arms guard body _ :: rest =>
    .ok (add { b with stack := rest } (.branch (arms ++ [.mk guard body])))
  | .loop .. :: _ => .error (.unbalanced .endIf .endForFirst span)
  | [] => .error (.unbalanced .endIf .noOpenIf span)

def endFor (b : Blocks) (span : Span) : Except CompileError Blocks :=
  match b.stack with
  | .loop index value collection body _ :: rest =>
    .ok (add { b with stack := rest } (.loop index value collection body))
  | .chain .. :: _ => .error (.unbalanced .endFor .endIfFirst span)
  | [] => .error (.unbalanced .endFor .noOpenFor span)

def step (b : Blocks) (p : Piece) : Except CompileError Blocks :=
  match p.token with
  | .literal text => .ok (b.add (.literal text))
  | .print e => .ok (b.add (.print (.ofPayload e)))
  | .embed path context => .ok (b.add (.embed path (context.map .ofPayload)))
  | .ifStart guard => .ok { b with stack := .chain [] (some (.ofPayload guard)) [] p.span :: b.stack }
  | .elseIf guard => b.nextArm .elseIf .elseIfBehindElse (some (.ofPayload guard)) p.span
  | .elsePart => b.nextArm .elsePart .secondElse none p.span
  | .endIf => b.endIf p.span
  | .forStart index value collection =>
    .ok { b with stack := .loop index value (.ofPayload collection) [] p.span :: b.stack }
  | .endFor => b.endFor p.span

def run (b : Blocks) : List Piece → Except CompileError Blocks
  | [] => .ok b
  | p :: ps =>
    match b.step p with
    | .ok b => b.run ps
    | .error e => .error e

theorem run_append (b : Blocks) (ps qs : List Piece) :
    b.run (ps ++ qs) = (b.run ps).bind fun b => b.run qs := by
  induction ps generalizing b with
  | nil => rfl
  | cons p ps ih =>
    simp only [List.cons_append, run]
    cases b.step p with
    | ok b => exact ih b
    | error e => rfl

def finish (b : Blocks) : Except CompileError (List Instruction) :=
  match b.stack with
  | [] => .ok b.root
  | .chain _ _ _ span :: _ => .error (.unbalanced .ifStart .missingEndIf span)
  | .loop _ _ _ _ span :: _ => .error (.unbalanced .forStart .missingEndFor span)

end Blocks

def assemble (ps : List Piece) : Except CompileError (List Instruction) :=
  (Blocks.empty.run ps).bind Blocks.finish

def Template.compile (name : Option String) (source : String) : Except CompileError Template := do
  return ⟨name, ← assemble (← pieces source)⟩

end Stencil
