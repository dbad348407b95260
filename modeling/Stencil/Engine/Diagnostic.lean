import Stencil.Engine.Basic
import Stencil.Text.Lines
import Stencil.Text.Width
set_option autoImplicit false

/-!
# Diagnostics

An error drawn over the line of the source at which it lies: the line under a heading, the part at
fault underlined, and an arrow from there to the wording. The bounds of a span count characters here.
-/

namespace Stencil

/-- An error of the source `source` that is registered under `name`. -/
structure Report where
  message : String
  label : String
  name : String
  source : String
  span : Span
  start_le_stop : span.start ≤ span.stop
  deriving DecidableEq, Repr

namespace Report

open Text

/-- The places of the first and of the last character of the span. An empty span has the same place at both
ends. -/
def ends? (r : Report) : Option (Place × Place) :=
  let place := Text.place? r.source.toList
  (place r.span.start).bind fun first =>
    (place (max r.span.start (r.span.stop - 1))).map fun last => (first, last)

/-- The widths of the first `count` columns under a line. Past its end each column is one wide. -/
def widths (line : List Char) (count : Nat) : List Nat :=
  let shown := line.zipIdx.map fun (c, i) => width i c
  (shown ++ List.replicate (count - shown.length) 1).take count

/-- One row under a line. A column shows its first character, and the second as often as it is wider
than one. -/
def row (cell : Nat → Char × Char) (widths : List Nat) : List Char :=
  widths.zipIdx.flatMap fun
    | (0, _) => []
    | (w + 1, i) => (cell i).1 :: List.replicate w (cell i).2

/-- The row below the line for a span of columns, with a joint in the middle of it. An empty span has
the joint alone. -/
def underline (start stop : Nat) (column : Nat) : Char × Char :=
  let inside := start ≤ column && column < stop
  if column = (start + stop) / 2 then if inside then ('┬', '─') else ('│', ' ')
  else if inside then ('─', '─')
  else (' ', ' ')

def arrow (joint : Nat) (column : Nat) : Char × Char :=
  if column = joint then ('╰', '─')
  else if joint < column then ('─', '─')
  else (' ', ' ')

/-- The column behind the last one of a span that begins at this place and lies in its line. -/
def stopColumn (r : Report) (p : Place) : Nat := p.column + (r.span.stop - r.span.start)

def lineRow (p : Place) : String :=
  " " ++ Decimal.natText (p.row + 1) ++ " │ " ++
    String.ofList ((trimEnd p.line).zipIdx.flatMap fun (c, i) => shown i c)

def inLine (r : Report) (margin : String) (p : Place) : List String :=
  let stop := r.stopColumn p
  let under := widths (trimEnd p.line) (stop + 2)
  [lineRow p,
    margin ++ "│ " ++ String.ofList (row (underline p.column stop) under),
    margin ++ "│ " ++ String.ofList (row (arrow ((p.column + stop) / 2)) under) ++ " " ++ r.label]

variable (across : Report → List String)

/-- The rows of the report under its message. A span that does not lie in one line of the source has the rows
`across` below the heading. -/
def drawn (r : Report) (first last : Place) : List String :=
  let width := (Decimal.natText (last.row + 1)).length + 2
  let margin := String.ofList (List.replicate width ' ')
  [margin ++ "╭─[" ++ r.name ++ ":" ++ Decimal.natText (first.row + 1) ++ ":" ++
      Decimal.natText (first.column + 1) ++ "]",
    margin ++ "│"] ++
  (if r.stopColumn first ≤ first.line.length then r.inLine margin first else across r) ++
  [String.ofList (List.replicate width '─') ++ "╯"]

/-- The message stands alone where the span begins or ends beyond the source. -/
def text (r : Report) : String :=
  let body := (r.ends?.map fun (first, last) => r.drawn across first last).getD []
  String.join ((("Error: " ++ r.message) :: body).map (· ++ "\n"))

end Report

/-- An error as it is shown to whoever wrote the template. One with a span that ends in front of its start
cannot be shown: the process is aborted. -/
inductive Diagnostic where
  | located (report : Report)
  | plain (message : String)
  | aborted
  deriving DecidableEq, Repr

namespace Diagnostic

def text? (across : Report → List String) : Diagnostic → Option String
  | .located r => some (r.text across)
  | .plain message => some ("Error: " ++ message)
  | .aborted => none

def ofSpan (message label name source : String) (span : Span) : Diagnostic :=
  if h : span.start ≤ span.stop then .located ⟨message, label, name, source, span, h⟩ else .aborted

def ofCompileError (name source : String) (e : CompileError) : Diagnostic :=
  match e.span? with
  | some span => ofSpan e.message e.message name source span
  | none => .plain e.message

def ofSyntaxError (name source : String) (e : Expr.SyntaxError) : Diagnostic :=
  let expected := match e.expectedTexts with
    | [] => ""
    | texts => "\nExpected: " ++ ", ".intercalate texts
  ofSpan e.message (e.message ++ expected) name source e.span

end Diagnostic

/-- The diagnostic of an error, drawn over the source that is registered at present. `start` is the
template with which the render began. Errors without a place in a source have none. -/
def Engine.diagnose (e : Engine) (start : String) : Error → Option Diagnostic
  | .compile cause => (e.get? start).map fun source => .ofCompileError start source cause
  | .embed (.compile name cause) =>
    (e.get? name).map fun source => .ofCompileError name source cause
  | .render (.expression (some name) _ cause) =>
    (e.get? name).map fun source => .ofSyntaxError name source cause
  | _ => none

end Stencil
