import Stencil.Engine.Diagnostic
import Stencil.Proofs.Text.Positions
import Stencil.Proofs.Text.Runs
set_option autoImplicit false

/-!
# The headings of diagnostics

A diagnostic names the line and the column at which it is drawn. It takes the first byte of the error's
span for the number of a character, and says nothing of a place if the span reaches beyond as many characters
as there are. Main statements: `Report.drawnOver` and `Engine.heading_right_iff`.
-/

namespace Stencil

open Text

/-- The name of the template in which the error lies, and the place there. A render that began with the
template `start` gives the name of one that does not compile. -/
def Error.location? (start : String) : Error → Option (String × Span)
  | .compile cause => cause.span?.map fun s => (start, s)
  | .embed (.compile name cause) => cause.span?.map fun s => (name, s)
  | .render (.expression (some name) _ x) => some (name, x.span)
  | _ => none

namespace Report

variable {across : Report → List String} {r : Report}

def heading (name : String) (line column : Nat) : String :=
  "╭─[" ++ name ++ ":" ++ Decimal.natText line ++ ":" ++ Decimal.natText column ++ "]\n"

/-- The text names this line and this column of the template, both counted from one. -/
def HasHeading (across : Report → List String) (r : Report) (line column : Nat) : Prop :=
  ∃ margin tail, r.text across = "Error: " ++ r.message ++ "\n" ++
    (String.ofList (List.replicate margin ' ') ++ (heading r.name line column ++ tail))

def Shows (across : Report → List String) (r : Report) (p : Place) : Prop :=
  ∃ front back, r.text across = front ++ (lineRow p ++ "\n") ++ back

/-- The text is drawn over this source: the heading names the place with as many characters in front of it as
the span's start says, unless the span reaches beyond the source. A span that lies in one line shows that
line. -/
structure DrawnOver (across : Report → List String) (r : Report) (source : List Char) : Prop where
  heading : ∀ line column, r.HasHeading across line column ↔ r.span.stop ≤ source.length + 1 ∧
    ∃ p, place? source r.span.start = some p ∧ line = p.row + 1 ∧ column = p.column + 1
  line : ∀ p, place? source r.span.start = some p → r.stopColumn p ≤ p.line.length →
    r.Shows across p

theorem text_of_none (h : r.ends? = none) : r.text across = "Error: " ++ r.message ++ "\n" := by
  simp [text, h]

theorem text_of_some {first last : Place} (h : r.ends? = some (first, last)) :
    r.text across = "Error: " ++ r.message ++ "\n" ++
      String.join ((r.drawn across first last).map (· ++ "\n")) := by
  simp only [text, h, Option.map_some, Option.getD_some, List.map_cons, String.join_cons]

theorem exists_ends?_iff {p : Place} : (∃ q, r.ends? = some (p, q)) ↔
    r.span.stop ≤ r.source.toList.length + 1 ∧ place? r.source.toList r.span.start = some p := by
  have hlast := place?_isSome_iff r.source.toList (max r.span.start (r.span.stop - 1))
  simp only [ends?, Option.bind_eq_some_iff, Option.map_eq_some_iff, Prod.mk.injEq]
  constructor
  · rintro ⟨q, first, hfirst, last, hq, rfl, -⟩
    rw [hq] at hlast
    have hmax := hlast.1 rfl
    exact ⟨by omega, hfirst⟩
  · rintro ⟨hstop, hfirst⟩
    have hstart := (place?_isSome_iff r.source.toList r.span.start).1 (by rw [hfirst]; rfl)
    obtain ⟨q, hq⟩ := Option.isSome_iff_exists.1 (hlast.2 (by omega))
    exact ⟨q, p, hfirst, q, hq, rfl, rfl⟩

theorem hasHeading_of_ends? {first last : Place} (h : r.ends? = some (first, last)) :
    r.HasHeading across (first.row + 1) (first.column + 1) := by
  rw [HasHeading, text_of_some h]
  refine ⟨(Decimal.natText (last.row + 1)).length + 2,
    String.join ((r.drawn across first last).tail.map (· ++ "\n")), ?_⟩
  simp only [drawn, heading, List.cons_append, List.tail_cons, List.map_cons, String.join_cons,
    String.append_assoc]
  rfl

theorem shows_of_ends? {first last : Place} (h : r.ends? = some (first, last))
    (hline : r.stopColumn first ≤ first.line.length) : r.Shows across first := by
  have hmem : lineRow first ∈ r.drawn across first last := by
    simp [drawn, if_pos hline, inLine]
  obtain ⟨above, below, hrows⟩ := List.append_of_mem hmem
  rw [Shows, text_of_some h, hrows, List.map_append, List.map_cons, String.join_append, String.join_cons,
    ← String.append_assoc, ← String.append_assoc]
  exact ⟨_, _, rfl⟩

theorem heading_inj {name tail tail' : String} {margin margin' line line' column column' : Nat}
    (h : String.ofList (List.replicate margin ' ') ++ (heading name line column ++ tail) =
      String.ofList (List.replicate margin' ' ') ++ (heading name line' column' ++ tail')) :
    line = line' ∧ column = column' := by
  have hcs := congrArg String.toList h
  have hspace (n : Nat) : ∀ c ∈ List.replicate n ' ', (c == ' ') = true := by simp +contextual
  have hcolon (cs : List Char) : ∀ c ∈ (":".toList ++ cs).head?, Decimal.isDigit c = false := by
    rintro c ⟨⟩
    decide
  have hbracket (cs : List Char) : ∀ c ∈ ("]\n".toList ++ cs).head?, Decimal.isDigit c = false := by
    rintro c ⟨⟩
    decide
  simp only [heading, Decimal.natText, String.toList_append, String.toList_ofList,
    List.append_assoc] at hcs
  obtain ⟨-, hcs⟩ := run_append_inj (hspace margin) (hspace margin') (by simp) (by simp) hcs
  rw [List.append_cancel_left_eq, List.append_cancel_left_eq, List.append_cancel_left_eq] at hcs
  obtain ⟨hline, hcs⟩ := run_append_inj Decimal.isDigit_of_mem_digits Decimal.isDigit_of_mem_digits
    (hcolon _) (hcolon _) hcs
  rw [List.append_cancel_left_eq] at hcs
  obtain ⟨hcolumn, -⟩ := run_append_inj Decimal.isDigit_of_mem_digits Decimal.isDigit_of_mem_digits
    (hbracket _) (hbracket _) hcs
  exact ⟨Decimal.digits_inj.1 hline, Decimal.digits_inj.1 hcolumn⟩

theorem hasHeading_iff {line column : Nat} : r.HasHeading across line column ↔
    ∃ p q, r.ends? = some (p, q) ∧ line = p.row + 1 ∧ column = p.column + 1 := by
  constructor
  · rintro ⟨margin, tail, htext⟩
    cases hends : r.ends? with
    | none =>
      rw [text_of_none hends] at htext
      have hlength := congrArg String.length htext
      have hheading : (heading r.name line column).length = 0 := by
        simp only [String.length_append] at hlength
        omega
      simp [heading] at hheading
    | some ends =>
      obtain ⟨p, q⟩ := ends
      have hheading : r.HasHeading across (p.row + 1) (p.column + 1) := hasHeading_of_ends? hends
      obtain ⟨margin', tail', htext'⟩ := hheading
      rw [htext', String.append_right_inj] at htext
      obtain ⟨hline, hcolumn⟩ := heading_inj htext
      exact ⟨p, q, rfl, hline.symm, hcolumn.symm⟩
  · rintro ⟨p, q, hends, rfl, rfl⟩
    exact hasHeading_of_ends? hends

/-- A span in one line of a source does not reach beyond the source. -/
theorem stop_le_of_stopColumn_le {source : List Char} {p : Place}
    (hplace : place? source r.span.start = some p) (hline : r.stopColumn p ≤ p.line.length) :
    r.span.stop ≤ source.length + 1 := by
  have hfits := place?_fits hplace
  have hle := r.start_le_stop
  rw [stopColumn] at hline
  omega

theorem drawnOver (across : Report → List String) (r : Report) :
    r.DrawnOver across r.source.toList where
  heading line column := by
    rw [hasHeading_iff]
    constructor
    · rintro ⟨p, q, hends, hline, hcolumn⟩
      obtain ⟨hstop, hplace⟩ := exists_ends?_iff.1 ⟨q, hends⟩
      exact ⟨hstop, p, hplace, hline, hcolumn⟩
    · rintro ⟨hstop, p, hplace, hline, hcolumn⟩
      obtain ⟨q, hends⟩ := exists_ends?_iff.2 ⟨hstop, hplace⟩
      exact ⟨p, q, hends, hline, hcolumn⟩
  line p hplace hline := by
    have hstop := stop_le_of_stopColumn_le hplace hline
    obtain ⟨q, hends⟩ := exists_ends?_iff.2 ⟨hstop, hplace⟩
    exact shows_of_ends? hends hline

theorem DrawnOver.in_line {source : List Char} (h : r.DrawnOver across source) {p : Place}
    (hplace : place? source r.span.start = some p) (hline : r.stopColumn p ≤ p.line.length) :
    r.HasHeading across (p.row + 1) (p.column + 1) ∧ r.Shows across p :=
  ⟨(h.heading _ _).2 ⟨stop_le_of_stopColumn_le hplace hline, p, hplace, rfl, rfl⟩, h.line p hplace hline⟩

end Report

namespace Diagnostic

variable {message label name source : String} {s : Span}

theorem ofSpan_of_le (h : s.start ≤ s.stop) :
    ofSpan message label name source s = .located ⟨message, label, name, source, s, h⟩ :=
  dif_pos h

theorem ofSpan_eq_aborted_iff : ofSpan message label name source s = .aborted ↔ s.stop < s.start := by
  rw [ofSpan]
  split <;> simp <;> omega

theorem ofCompileError_of_span {cause : CompileError} (h : cause.span? = some s) :
    ofCompileError name source cause = ofSpan cause.message cause.message name source s := by
  rw [ofCompileError, h]

end Diagnostic

namespace Engine

variable (e : Engine) (start : String) {name source : String} {x : Error} {s : Span}

theorem diagnose_of_location? (hx : x.location? start = some (name, s))
    (hsource : e.get? name = some source) :
    ∃ message label, e.diagnose start x = some (.ofSpan message label name source s) := by
  unfold Error.location? at hx
  split at hx
  · next cause =>
    obtain ⟨s, hs, hx⟩ := Option.map_eq_some_iff.1 hx
    cases hx
    rw [diagnose, hsource, Option.map_some, Diagnostic.ofCompileError_of_span hs]
    exact ⟨_, _, rfl⟩
  · next cause =>
    obtain ⟨s, hs, hx⟩ := Option.map_eq_some_iff.1 hx
    cases hx
    rw [diagnose, hsource, Option.map_some, Diagnostic.ofCompileError_of_span hs]
    exact ⟨_, _, rfl⟩
  · cases hx
    rw [diagnose, hsource]
    exact ⟨_, _, rfl⟩
  · cases hx

/-- Only an error that ends in front of its start cannot be shown. -/
theorem diagnose_aborted_iff (hx : x.location? start = some (name, s))
    (hsource : e.get? name = some source) :
    e.diagnose start x = some .aborted ↔ s.stop < s.start := by
  obtain ⟨message, label, hd⟩ := e.diagnose_of_location? start hx hsource
  rw [hd, Option.some_inj, Diagnostic.ofSpan_eq_aborted_iff]

/-- The heading of a diagnostic names the place with as many characters in front of it as there are bytes
in front of the error. There is none if the last byte of the error has a number beyond that of the characters.
For an error that lies in one line the place is the right one if and only if all the characters in front of it
have one byte and there is a heading. -/
theorem heading_right_iff (hx : x.location? start = some (name, s))
    (hsource : e.get? name = some source) {above : List (List Char)} {front : List Char}
    (hs : s.LiesIn source.toList above front) :
    ∃ r : Report, e.diagnose start x = some (.located r) ∧ r.name = name ∧ r.source = source ∧
      r.span = s ∧ ∀ across, r.DrawnOver across source.toList ∧
        (r.HasHeading across (above.length + 1) (front.length + 1) ↔
          (∀ c ∈ above.flatten ++ front, c.utf8Size = 1) ∧ s.stop ≤ source.toList.length + 1) := by
  obtain ⟨message, label, hr⟩ := e.diagnose_of_location? start hx hsource
  rw [Diagnostic.ofSpan_of_le hs.start_le_stop] at hr
  refine ⟨_, hr, rfl, rfl, rfl, fun across => ?_⟩
  have hdrawn := Report.drawnOver across ⟨message, label, name, source, s, hs.start_le_stop⟩
  refine ⟨hdrawn, ?_⟩
  rw [hdrawn.heading, ← hs.place_iff, and_comm]
  simp only [Nat.add_right_cancel_iff, eq_comm]

/-- A longer character behind the error does no harm. Three of them in an error that reaches up to the end of
the source leave no heading. -/
theorem heading_right_or_missing :
    let source := "a\n $\x7bif x\x7dé"
    let e := empty.set "p" source
    let x : Error := .compile (.unbalanced .ifStart .missingEndIf ⟨3, 10⟩)
    let source' := "$\x7bééé"
    let e' := empty.set "p" source'
    let x' : Error := .compile (.unterminated ⟨0, 8⟩)
    ((e.render "p" (.object [])).1 = .error (.error x) ∧
      ∃ r : Report, e.diagnose "p" x = some (.located r) ∧ ∀ across, r.HasHeading across 2 2) ∧
    (e'.render "p" (.object [])).1 = .error (.error x') ∧
      ∃ r : Report, e'.diagnose "p" x' = some (.located r) ∧ ∀ across, ¬ r.HasHeading across 1 1 := by
  intro source e x source' e' x'
  have hx : (e.render "p" (.object [])).1 = .error (.error x) := by decide +kernel
  have hx' : (e'.render "p" (.object [])).1 = .error (.error x') := by decide +kernel
  have hs : (⟨3, 10⟩ : Span).LiesIn source.toList [['a', '\n']] [' '] :=
    ⟨"$\x7bif x\x7dé".toList, [], by decide, by decide, by decide, by decide, by decide⟩
  have hs' : (⟨0, 8⟩ : Span).LiesIn source'.toList [] [] :=
    ⟨source'.toList, [], by decide, by decide, by decide, by decide, by decide⟩
  have hlocation : x.location? "p" = some ("p", ⟨3, 10⟩) := rfl
  have hlocation' : x'.location? "p" = some ("p", ⟨0, 8⟩) := rfl
  obtain ⟨r, hr, -, -, -, hdrawn⟩ := heading_right_iff e "p" hlocation rfl hs
  obtain ⟨r', hr', -, -, -, hdrawn'⟩ := heading_right_iff e' "p" hlocation' rfl hs'
  refine ⟨⟨hx, r, hr, fun across => (hdrawn across).2.2 ⟨?_, by decide⟩⟩, hx', r', hr', fun across h => ?_⟩
  · exact byteLength_eq_length_iff.1 (by decide)
  · exact absurd ((hdrawn' across).2.1 h).2 (by decide)

/-- A character of two bytes in front of the error: the column named is one too far to the right. -/
theorem heading_behind_long_character :
    let source := "é $\x7b1 +\x7d"
    let front := ['é', ' ', '$', '\x7b', '1', ' ', '+']
    let e := empty.set "p" source
    let s : Span := ⟨8, 8⟩
    let x : Error := .render (.expression (some "p") "1 +" ⟨s, none, Expr.State.start.expected⟩)
    (e.render "p" (.object [])).1 = .error (.error x) ∧ s.LiesIn source.toList [] front ∧
      ∃ r : Report, e.diagnose "p" x = some (.located r) ∧
        ∀ across, r.HasHeading across 1 9 ∧ ¬ r.HasHeading across 1 (front.length + 1) := by
  intro source front e s x
  have hx : (e.render "p" (.object [])).1 = .error (.error x) := by decide +kernel
  have hsource : e.get? "p" = some source := rfl
  have hs : s.LiesIn source.toList [] front :=
    ⟨['\x7d'], [], by decide, by decide, by decide, by decide, by decide⟩
  have hlocation : x.location? "p" = some ("p", s) := rfl
  obtain ⟨message, label, hr⟩ := e.diagnose_of_location? "p" hlocation hsource
  rw [Diagnostic.ofSpan_of_le hs.start_le_stop] at hr
  have hplace : place? source.toList s.start = some ⟨0, 8, source.toList⟩ := by decide
  have hstop : s.stop ≤ source.toList.length + 1 := by decide
  refine ⟨hx, hs, _, hr, fun across => ?_⟩
  have hdrawn := Report.drawnOver across ⟨message, label, "p", source, s, hs.start_le_stop⟩
  refine ⟨(hdrawn.heading 1 9).2 ⟨hstop, _, hplace, rfl, rfl⟩, fun h => ?_⟩
  obtain ⟨-, p, hp, -, hcolumn⟩ := (hdrawn.heading _ _).1 h
  obtain rfl := Option.some.inj (hplace.symm.trans hp)
  exact absurd hcolumn (by decide)

end Engine

end Stencil
