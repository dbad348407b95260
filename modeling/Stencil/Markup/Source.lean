import Stencil.Markup.Slot
set_option autoImplicit false

/-!
# Reading templates

A source is cut into literal texts and slots. A backslash before an opener makes it text; two
backslashes stand for one before a slot. Adjacent pieces of text are one token, and no token is empty.
-/

namespace Stencil.Markup

open Text

def opener : List Char := ['$', '\x7b']

/-- The text before the first opener and the text behind it. -/
def splitOpener : List Char → Option (List Char × List Char)
  | [] => none
  | c :: cs =>
    if c = '$' && cs.head? = some '\x7b' then some ([], cs.tail)
    else (splitOpener cs).map fun p => (c :: p.1, p.2)

theorem splitOpener_append {cs before behind : List Char}
    (h : splitOpener cs = some (before, behind)) : before ++ opener ++ behind = cs := by
  induction cs generalizing before with
  | nil => simp [splitOpener] at h
  | cons c cs ih =>
    unfold splitOpener at h
    split at h
    · next hc =>
      cases cs with
      | nil => simp at hc
      | cons d cs => simp at hc; simp at h; obtain ⟨rfl, rfl⟩ := h; simp [opener, hc]
    · obtain ⟨p, hp, he⟩ := Option.map_eq_some_iff.1 h
      cases he
      simp [← ih hp]

def dropBytes : Nat → List Char → List Char
  | 0, cs => cs
  | _, [] => []
  | n, c :: cs => dropBytes (n - c.utf8Size) cs

/-- A trimmed payload and its place, which is `offset` for the text it is taken from. -/
def Payload.trimmed (cs : List Char) (offset : Nat) : Payload :=
  ⟨String.ofList (trim cs), offset + byteLength (leadingBlanks cs)⟩

def forToken? (text : String) (offset : Nat) : Option Token :=
  match Expr.lex text with
  | ⟨.ident i, _⟩ :: ⟨.symbol .comma, _⟩ :: ⟨.ident v, _⟩ :: ⟨.keyword .in, s⟩ :: _ =>
    let collection := Payload.trimmed (dropBytes s.stop text.toList) (offset + s.stop)
    if collection.text = "" then none else some (.forStart i v collection)
  | _ => none

/-- A path and, behind a blank, the context. -/
def embedToken? (text : String) (offset : Nat) : Option Token :=
  let p := Payload.trimmed text.toList offset
  let path := p.text.toList.takeWhile fun c => !isBlank c
  let behind := p.text.toList.dropWhile fun c => !isBlank c
  if path = [] then none
  else
    let context := Payload.trimmed behind (p.offset + byteLength path)
    some (.embed (String.ofList path) (if context.text = "" then none else some context))

namespace Slot

def length (s : Slot) : Nat := byteLength opener + byteLength s.text

def payloadAt (s : Slot) (start : Nat) : Payload :=
  ⟨String.ofList s.payload, start + byteLength opener + byteLength s.lead⟩

def bare (s : Slot) (token : Token) (span : Span) : Except CompileError Token :=
  if trim s.payload = [] then .ok token
  else .error (.unexpectedPayload s.directive (String.ofList s.payload) span)

def token (s : Slot) (start : Nat) : Except CompileError Token :=
  let p := s.payloadAt start
  let span : Span := ⟨start, start + s.length⟩
  match s.directive with
  | .print => .ok (.print p)
  | .ifStart => .ok (.ifStart p)
  | .elseIf => .ok (.elseIf p)
  | .elsePart => s.bare .elsePart span
  | .endIf => s.bare .endIf span
  | .endFor => s.bare .endFor span
  | .forStart =>
    match forToken? p.text p.offset with
    | some t => .ok t
    | none => .error (.invalidFor p.text span)
  | .embed =>
    match embedToken? p.text p.offset with
    | some t => .ok t
    | none => .error (.invalidInclude span)

end Slot

def SlotFault.toError (start total : Nat) : SlotFault → CompileError
  | .unknownDirective word n =>
    .unknownDirective (String.ofList ('_' :: word)) ⟨start, start + byteLength opener + n⟩
  | .unterminated => .unterminated ⟨start, total⟩
  | .expectedClose n => .expectedClose ⟨start, start + byteLength opener + n + 1⟩

def backslashes (cs : List Char) : Nat := (cs.reverse.takeWhile (· = '\\')).length

/-- The literal token of a text, none for an empty one. -/
def literalPiece (text : List Char) (span : Span) : List Piece :=
  if text = [] then [] else [⟨.literal (String.ofList text), span⟩]

/-- The tokens of the text at byte `pos`, behind the literal text `text` that began at byte `begin`
and is not finished. -/
def piecesFrom (begin pos : Nat) (text cs : List Char) : Except CompileError (List Piece) :=
  match _h : splitOpener cs with
  | none => .ok (literalPiece (text ++ cs) ⟨begin, pos + byteLength cs⟩)
  | some (before, behind) =>
    let start := pos + byteLength before
    if backslashes before = 1 then
      piecesFrom begin (start + byteLength opener) (text ++ before.dropLast ++ opener) behind
    else
      match _hs : Slot.read behind with
      | .error fault =>
        .error (fault.toError start (start + byteLength opener + byteLength behind))
      | .ok slot =>
        match slot.token start with
        | .error e => .error e
        | .ok token =>
          let stop := start + slot.length
          let text := text ++ if backslashes before = 0 then before else before.dropLast
          match piecesFrom stop stop [] slot.rest with
          | .error e => .error e
          | .ok rest => .ok (literalPiece text ⟨begin, start⟩ ++ ⟨token, start, stop⟩ :: rest)
termination_by cs.length
decreasing_by
  · rw [← splitOpener_append _h]; simp [opener]; omega
  · have := Slot.length_rest_lt _hs
    rw [← splitOpener_append _h]; simp; omega

def pieces (source : String) : Except CompileError (List Piece) :=
  piecesFrom 0 0 [] source.toList

end Stencil.Markup
