import Stencil.Proofs.Expr.Places
import Stencil.Proofs.Markup.Payloads
import Stencil.Proofs.Program.Joining
set_option autoImplicit false

namespace Stencil

open Text Markup

mutual

/-- The expressions of a tree, as they follow one another in the source. -/
def Instruction.expressions : Instruction → List Expression
  | .literal _ => []
  | .print e => [e]
  | .branch arms => Arm.expressionsAll arms
  | .loop _ _ collection body => collection :: Instruction.expressionsAll body
  | .embed _ context => context.toList

def Instruction.expressionsAll : List Instruction → List Expression
  | [] => []
  | i :: is => i.expressions ++ Instruction.expressionsAll is

def Arm.expressionsAll : List Arm → List Expression
  | [] => []
  | .mk guard body :: arms =>
    guard.toList ++ (Instruction.expressionsAll body ++ Arm.expressionsAll arms)

end

def Template.expressions (t : Template) : List Expression :=
  Instruction.expressionsAll t.instructions

theorem Arm.payloads_header (first : Bool) (guard : Option Expression) :
    (header first guard).payloads = guard.toList.map Expression.payload := by
  cases guard <;> cases first <;> rfl

mutual

theorem Instruction.payloads_tokens : ∀ i : Instruction,
    i.tokens.flatMap Token.payloads = i.expressions.map Expression.payload
  | .literal _ => rfl
  | .print _ => rfl
  | .branch arms => by
    rw [Instruction.tokens, Instruction.expressions, List.flatMap_append,
      Arm.payloads_tokensAll true arms]
    exact List.append_nil _
  | .loop _ _ _ body => by
    rw [Instruction.tokens, Instruction.expressions, List.flatMap_cons, List.flatMap_append,
      Instruction.payloads_tokensAll body, List.map_cons]
    exact congrArg _ (List.append_nil _)
  | .embed _ none => rfl
  | .embed _ (some _) => rfl

theorem Instruction.payloads_tokensAll : ∀ is : List Instruction,
    (Instruction.tokensAll is).flatMap Token.payloads =
      (Instruction.expressionsAll is).map Expression.payload
  | [] => rfl
  | i :: is => by
    rw [Instruction.tokensAll, Instruction.expressionsAll, List.flatMap_append, i.payloads_tokens,
      Instruction.payloads_tokensAll is, List.map_append]

theorem Arm.payloads_tokensAll (first : Bool) : ∀ arms : List Arm,
    (Arm.tokensAll first arms).flatMap Token.payloads =
      (Arm.expressionsAll arms).map Expression.payload
  | [] => rfl
  | .mk guard body :: arms => by
    rw [Arm.tokensAll, Arm.expressionsAll, List.flatMap_cons, List.flatMap_append,
      Arm.payloads_header, Instruction.payloads_tokensAll body, Arm.payloads_tokensAll false arms,
      List.map_append, List.map_append]

end

mutual

theorem Instruction.WellFormed.faithful : ∀ i : Instruction, i.WellFormed →
    ∀ e ∈ i.expressions, e.Faithful
  | .literal _, _, e, he => by cases he
  | .print _, h, e, he => List.mem_singleton.1 he ▸ h
  | .branch arms, h, e, he => Arm.AllWellFormed.faithful arms h.2 e he
  | .loop _ _ _ body, h, e, he => by
    obtain rfl | he := List.mem_cons.1 he
    · exact h.1
    · exact Instruction.AllWellFormed.faithful body h.2 e he
  | .embed _ _, h, e, he => h e (Option.mem_toList.1 he)

theorem Instruction.AllWellFormed.faithful : ∀ is : List Instruction,
    Instruction.AllWellFormed is → ∀ e ∈ Instruction.expressionsAll is, e.Faithful
  | [], _, e, he => by cases he
  | i :: is, h, e, he => by
    obtain he | he := List.mem_append.1 he
    · exact Instruction.WellFormed.faithful i h.1 e he
    · exact Instruction.AllWellFormed.faithful is h.2 e he

theorem Arm.AllWellFormed.faithful : ∀ arms : List Arm, Arm.AllWellFormed arms →
    ∀ e ∈ Arm.expressionsAll arms, e.Faithful
  | [], _, e, he => by cases he
  | .mk guard body :: arms, h, e, he => by
    obtain he | he := List.mem_append.1 he
    · exact h.1 e (Option.mem_toList.1 he)
    · obtain he | he := List.mem_append.1 he
      · exact Instruction.AllWellFormed.faithful body h.2.1 e he
      · exact Arm.AllWellFormed.faithful arms h.2.2 e he

end

namespace Expression

variable {e : Expression} {x : Expr.SyntaxError}

theorem Faithful.parsed_eq_error (h : e.Faithful) (hx : e.parsed = .error x) :
    ∃ y, Expr.parse e.source = .error y ∧ x = y.shift e.offset := by
  have hparsed : e.parsed = (Expr.parse e.source).mapError fun y => y.shift e.offset :=
    congrArg Expression.parsed h.symm
  rw [hx] at hparsed
  cases hp : Expr.parse e.source with
  | ok t =>
    rw [hp] at hparsed
    cases hparsed
  | error y =>
    rw [hp] at hparsed
    cases hparsed
    exact ⟨y, rfl, rfl⟩

end Expression

theorem not_endsBlank_of_trim {cs : List Char} (h : trim cs = cs) : ¬ Expr.EndsBlank cs := by
  rintro ⟨⟨c, hc, hb⟩, -⟩
  have hne : trim cs ≠ [] := by
    rw [h]
    rintro rfl
    cases hc
  obtain ⟨d, hd, hd'⟩ := (solid_trim hne).last
  rw [h] at hd
  obtain rfl := Option.some.inj (hc.symm.trans hd)
  rw [isSlotBlank_isBlank (isLexBlank_isSlotBlank hb)] at hd'
  cases hd'

namespace Template

variable {name : Option String} {source : String} {t : Template} {e : Expression}

theorem standsIn_of_mem_expressions (h : compile name source = .ok t) (he : e ∈ t.expressions) :
    e.Faithful ∧ e.payload.StandsIn source.toList 0 := by
  obtain ⟨ps, hps, his, -⟩ := compile_eq_ok_iff.1 h
  obtain ⟨htokens, hwf⟩ := Blocks.assemble_ok his
  refine ⟨Instruction.AllWellFormed.faithful t.instructions hwf e he, ?_⟩
  have hpayload : e.payload ∈ (ps.map Piece.token).flatMap Token.payloads := by
    rw [← htokens, Instruction.payloads_tokensAll]
    exact List.mem_map_of_mem he
  obtain ⟨token, htoken, hpayload⟩ := List.mem_flatMap.1 hpayload
  obtain ⟨p, hp, rfl⟩ := List.mem_map.1 htoken
  exact standsIn_of_mem_pieces hps hp hpayload

/-- The text of each expression stands in the source at its offset. -/
theorem covers_of_mem_expressions (h : compile name source = .ok t) (he : e ∈ t.expressions) :
    (⟨e.offset, e.offset + byteLength e.source.toList⟩ : Span).Covers source.toList
      e.source.toList := by
  obtain ⟨-, before, behind, hsource, hoffset, -⟩ := standsIn_of_mem_expressions h he
  obtain hbefore : e.offset = byteLength before := hoffset.trans (Nat.zero_add _)
  exact ⟨before, behind, hsource, by rw [hbefore]⟩

/-- The syntax error of an expression begins and ends within the expression's text, between characters
of the source. Only where the expression is not finished and its text ends with a blank, which can be
between backticks alone, it ends before it begins. -/
theorem syntax_error_place (h : compile name source = .ok t) (he : e ∈ t.expressions)
    {x : Expr.SyntaxError} (hx : e.parsed = .error x) :
    (e.offset ≤ x.span.start ∧ x.span.start ≤ e.offset + byteLength e.source.toList) ∧
    (e.offset ≤ x.span.stop ∧ x.span.stop ≤ e.offset + byteLength e.source.toList) ∧
    Boundary source.toList x.span.start ∧ Boundary source.toList x.span.stop ∧
    (x.span.stop < x.span.start ↔ x.found = none ∧ Expr.EndsBlank e.source.toList) ∧
    (Expr.EndsBlank e.source.toList → ∃ before behind,
      source.toList = before ++ '\x60' :: (e.source.toList ++ behind) ∧
        e.offset = byteLength before + 1) := by
  obtain ⟨hfaithful, before, behind, hsource, hoffset, hends⟩ := standsIn_of_mem_expressions h he
  obtain ⟨y, hy, rfl⟩ := hfaithful.parsed_eq_error hx
  obtain ⟨hstart, hstop, hback⟩ := Expr.parse_error_place hy
  have hbefore : e.offset = byteLength before := hoffset.trans (Nat.zero_add _)
  have hle := hstart.le
  have hle' := hstop.le
  have hplaced := hstart.within before behind
  have hplaced' := hstop.within before behind
  simp only [Expression.payload] at hsource hends
  rw [← hsource, ← hbefore, Nat.add_comm] at hplaced hplaced'
  simp only [Expr.SyntaxError.shift, Span.shift]
  refine ⟨by omega, by omega, hplaced, hplaced', ?_, fun hblank => ?_⟩
  · rw [Nat.add_lt_add_iff_right]
    exact hback
  · have htick := hends.resolve_left fun htrim => not_endsBlank_of_trim htrim hblank
    obtain ⟨before, rfl⟩ := List.getLast?_eq_some_iff.1 htick
    refine ⟨before, behind, by simpa using hsource, ?_⟩
    rw [hbefore, byteLength_append]
    rfl

theorem foreign_character_placed :
    let source := "é$\x7b_\x60é \x60\x7d"
    let e : Expression := .ofPayload ⟨"é ", 6⟩
    ∃ x : Expr.SyntaxError, compile none source = .ok ⟨none, [.literal "é", .print e]⟩ ∧
      e.parsed = .error x ∧ x.span = ⟨6, 8⟩ ∧
      Boundary source.toList x.span.start ∧ Boundary source.toList x.span.stop ∧
      ¬ x.span.stop < x.span.start := by
  intro source e
  have hpieces : pieces source = .ok [⟨.literal "é", 0, 2⟩, ⟨.print ⟨"é ", 6⟩, 2, 11⟩] := by
    decide +kernel
  have hcompile : compile none source = .ok ⟨none, [.literal "é", .print e]⟩ :=
    compile_eq_ok_iff.2 ⟨_, hpieces, rfl, rfl⟩
  have hlex : Expr.lex "é " = [⟨.error "é", 0, 2⟩] := by decide +kernel
  have hparse : Expr.parse "é " = .error ⟨⟨0, 2⟩, some (.error "é"), Expr.State.start.expected⟩ := by
    rw [Expr.parse, hlex]
    rfl
  have hx : e.parsed = .error ⟨⟨6, 8⟩, some (.error "é"), Expr.State.start.expected⟩ := by
    change (Expr.parse "é ").mapError _ = _
    rw [hparse]
    rfl
  obtain ⟨-, -, hstart, hstop, hback, -⟩ :=
    syntax_error_place (e := e) hcompile (List.mem_singleton_self e) hx
  exact ⟨_, hcompile, hx, rfl, hstart, hstop, fun h => absurd (hback.1 h).1 (by simp)⟩

/-- An expression that is not finished, with a blank behind it: the error ends before it begins. -/
theorem unfinished_sum_reversed :
    let source := "$\x7b_\x601 + \x60\x7d"
    let e : Expression := .ofPayload ⟨"1 + ", 4⟩
    ∃ x : Expr.SyntaxError, compile none source = .ok ⟨none, [.print e]⟩ ∧
      e.parsed = .error x ∧ x.span = ⟨8, 7⟩ ∧ ¬ x.span.start ≤ x.span.stop := by
  intro source e
  have hpieces : pieces source = .ok [⟨.print ⟨"1 + ", 4⟩, 0, 10⟩] := by decide +kernel
  obtain ⟨n, hlex⟩ : ∃ n, Expr.lex "1 + " = [⟨.number n, 0, 1⟩, ⟨.symbol .plus, 2, 3⟩] :=
    ⟨Binary64.ofDigits false ['1'] [] 0, by decide +kernel⟩
  obtain ⟨expected, hx⟩ : ∃ ex, e.parsed = .error ⟨⟨8, 7⟩, none, ex⟩ := by
    change ∃ ex, (Expr.parse "1 + ").mapError _ = _
    rw [Expr.parse, hlex]
    exact ⟨_, rfl⟩
  exact ⟨_, compile_eq_ok_iff.2 ⟨_, hpieces, rfl, rfl⟩, hx, rfl, by simp⟩

end Template

end Stencil
