import Stencil.Expr.Lexer
import Stencil.Markup.Error
set_option autoImplicit false

/-!
# Slots

What stands between `$` with an opening brace and the closing brace. A slot has a marker, which may be
left out for printing, and a payload: between backticks, taken as it is, or bare, up to the brace
that balances the opening one. Taking a slot apart loses nothing. Main statements:
`read_append`, the parts are the text, and `length_rest_lt`.
-/

namespace Stencil.Markup

open Text

/-- A slot taken apart: the text behind its opener is `lead ++ payload ++ tail ++ rest`. -/
structure Slot where
  directive : Directive
  lead : List Char
  payload : List Char
  tail : List Char
  rest : List Char
  deriving DecidableEq, Repr

/-- Why a slot cannot be read. Lengths count the bytes behind the opener up to the fault. -/
inductive SlotFault where
  | unknownDirective (word : List Char) (length : Nat)
  | unterminated
  | expectedClose (length : Nat)
  deriving DecidableEq, Repr

structure Marked where
  directive : Directive
  text : List Char
  rest : List Char
  deriving DecidableEq, Repr

/-- A word without underscore is a marker only before a blank, a backtick or the end. -/
def endsMarker : List Char → Bool
  | [] => true
  | c :: _ => c = '\x60' || c = '\x7d' || isSlotBlank c

def plainMarker (blanks content : List Char) : Marked :=
  let word := content.takeWhile Expr.isNamePart
  let rest := content.dropWhile Expr.isNamePart
  match Directive.ofName? (String.ofList word) with
  | some d => if endsMarker rest then ⟨d, blanks ++ word, rest⟩ else ⟨.print, blanks, content⟩
  | none => ⟨.print, blanks, content⟩

/-- A word behind an underscore. One that is no directive is an unknown directive before a backtick
and otherwise begins an expression that is printed. -/
def underscoreMarker (blanks more : List Char) : Except SlotFault Marked :=
  let word := more.takeWhile Expr.isNamePart
  let rest := more.dropWhile Expr.isNamePart
  if word = [] then .ok ⟨.print, blanks ++ ['_'], rest⟩
  else
    match Directive.ofName? (String.ofList word) with
    | some d => .ok ⟨d, blanks ++ '_' :: word, rest⟩
    | none =>
      if (rest.dropWhile isSlotBlank).head? = some '\x60' then
        .error (.unknownDirective word (byteLength (blanks ++ '_' :: word)))
      else .ok ⟨.print, blanks, '_' :: more⟩

def marker (cs : List Char) : Except SlotFault Marked :=
  let blanks := cs.takeWhile isSlotBlank
  match cs.dropWhile isSlotBlank with
  | '_' :: more => underscoreMarker blanks more
  | content => .ok (plainMarker blanks content)

/-- The text up to the brace that closes a bare payload, and the text behind that brace. Braces
are counted outside of strings; in a string a backslash takes the next character. -/
def bareBody (quote : Option Char) (depth : Nat) : List Char → Option (List Char × List Char)
  | [] => none
  | c :: cs =>
    match quote with
    | some q =>
      if c = '\\' then
        match cs with
        | [] => none
        | d :: cs => (bareBody quote depth cs).map fun p => (c :: d :: p.1, p.2)
      else (bareBody (if c = q then none else quote) depth cs).map fun p => (c :: p.1, p.2)
    | none =>
      if c = '"' || c = '\'' then (bareBody (some c) depth cs).map fun p => (c :: p.1, p.2)
      else if c = '\x7b' then (bareBody none (depth + 1) cs).map fun p => (c :: p.1, p.2)
      else if c = '\x7d' then
        match depth with
        | 0 => some ([], cs)
        | depth + 1 => (bareBody none depth cs).map fun p => (c :: p.1, p.2)
      else (bareBody none depth cs).map fun p => (c :: p.1, p.2)

theorem bareBody_append {quote : Option Char} {depth : Nat} {cs raw rest : List Char}
    (h : bareBody quote depth cs = some (raw, rest)) : raw ++ '\x7d' :: rest = cs := by
  fun_induction bareBody quote depth cs generalizing raw rest <;> grind [Option.map_eq_some_iff]

namespace Slot

/-- A slot whose payload stands between backticks; `lead` ends with the first one. -/
def readTicked (d : Directive) (lead more : List Char) : Except SlotFault Slot :=
  let payload := more.takeWhile (· ≠ '\x60')
  match more.dropWhile (· ≠ '\x60') with
  | [] => .error .unterminated
  | tick :: behind =>
    let blanks := behind.takeWhile isSlotBlank
    match behind.dropWhile isSlotBlank with
    | [] => .error .unterminated
    | c :: rest =>
      if c = '\x7d' then .ok ⟨d, lead, payload, tick :: blanks ++ [c], rest⟩
      else .error (.expectedClose (byteLength (lead ++ payload ++ tick :: blanks)))

/-- A slot with a bare payload, whose blanks at either end are not part of it. -/
def readBare (d : Directive) (lead body : List Char) : Except SlotFault Slot :=
  match bareBody none 0 body with
  | none => .error .unterminated
  | some (raw, rest) =>
    .ok ⟨d, lead ++ leadingBlanks raw, trim raw, trailingBlanks (trimStart raw) ++ ['\x7d'], rest⟩

def read (cs : List Char) : Except SlotFault Slot :=
  match marker cs with
  | .error fault => .error fault
  | .ok m =>
    let blanks := m.rest.takeWhile isSlotBlank
    match m.rest.dropWhile isSlotBlank with
    | '\x60' :: more => readTicked m.directive (m.text ++ blanks ++ ['\x60']) more
    | body => readBare m.directive (m.text ++ blanks) body

def text (s : Slot) : List Char := s.lead ++ s.payload ++ s.tail

theorem readBare_append {d : Directive} {lead body : List Char} {s : Slot}
    (h : readBare d lead body = .ok s) : s.text ++ s.rest = lead ++ body := by
  unfold readBare at h
  split at h
  · cases h
  · next raw rest hb =>
    cases h
    have h1 := bareBody_append hb
    have h2 := leadingBlanks_append_trimStart raw
    have h3 := trimEnd_append_trailingBlanks (trimStart raw)
    simp only [text, trim, ← h1]
    conv => rhs; rw [← h2, ← h3]
    simp

theorem readTicked_append {d : Directive} {lead more : List Char} {s : Slot}
    (h : readTicked d lead more = .ok s) : s.text ++ s.rest = lead ++ more := by
  unfold readTicked at h
  have h1 := List.takeWhile_append_dropWhile (p := (· ≠ '\x60')) (l := more)
  dsimp only at h
  split at h
  · cases h
  · next tick behind ht =>
    have h2 := List.takeWhile_append_dropWhile (p := isSlotBlank) (l := behind)
    split at h
    · cases h
    · next c rest hb =>
      split at h
      · cases h
        simp only [text]
        conv => rhs; rw [← h1, ht, ← h2, hb]
        simp
      · cases h

theorem marker_append {cs : List Char} {m : Marked} (h : marker cs = .ok m) :
    m.text ++ m.rest = cs := by
  have h1 := List.takeWhile_append_dropWhile (p := isSlotBlank) (l := cs)
  unfold marker at h
  dsimp only at h
  split at h
  · next more hm =>
    have h2 := List.takeWhile_append_dropWhile (p := Expr.isNamePart) (l := more)
    unfold underscoreMarker at h
    dsimp only at h
    rw [hm] at h1
    grind
  · next content hc =>
    have h2 := List.takeWhile_append_dropWhile (p := Expr.isNamePart)
      (l := cs.dropWhile isSlotBlank)
    cases h
    unfold plainMarker
    dsimp only
    grind

/-- Taking a slot apart loses nothing. -/
theorem read_append {cs : List Char} {s : Slot} (h : read cs = .ok s) : s.text ++ s.rest = cs := by
  unfold read at h
  split at h
  · cases h
  · next m hm =>
    have h1 := marker_append hm
    have h2 := List.takeWhile_append_dropWhile (p := isSlotBlank) (l := m.rest)
    dsimp only at h
    split at h
    · next more hd =>
      rw [hd] at h2
      rw [readTicked_append h, ← h1]
      conv => rhs; rw [← h2]
      simp
    · rw [readBare_append h, ← h1]
      conv => rhs; rw [← h2]
      simp

theorem tail_ne_nil {cs : List Char} {s : Slot} (h : read cs = .ok s) : s.tail ≠ [] := by
  unfold read at h
  split at h
  · cases h
  · dsimp only at h
    split at h
    · unfold readTicked at h
      dsimp only at h
      split at h
      · cases h
      · split at h
        · cases h
        · split at h <;> cases h; simp
    · unfold readBare at h
      split at h <;> cases h; simp

theorem length_rest_lt {cs : List Char} {s : Slot} (h : read cs = .ok s) :
    s.rest.length < cs.length := by
  have h1 := read_append h
  have h2 := List.length_pos_iff.2 (tail_ne_nil h)
  rw [← h1]
  simp [text]
  omega

end Slot

end Stencil.Markup
