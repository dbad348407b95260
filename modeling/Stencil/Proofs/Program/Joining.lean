import Stencil.Proofs.Markup.Appending
import Stencil.Proofs.Program.Assembly
set_option autoImplicit false

namespace Stencil

open Markup

/-- The same expression once `n` bytes are put in front of the source. -/
def Expression.shift (n : Nat) (e : Expression) : Expression :=
  ⟨e.source, e.offset + n, e.parsed.mapError fun x => x.shift n⟩

theorem Expression.Faithful.shift {e : Expression} (h : e.Faithful) (n : Nat) :
    (e.shift n).Faithful := by
  have he : e.parsed = (Expr.parse e.source).mapError fun x => x.shift e.offset :=
    congrArg Expression.parsed h.symm
  simp only [Faithful, ofPayload, compile, payload, Expression.shift, he]
  cases Expr.parse e.source with
  | ok x => rfl
  | error x => simp only [Except.mapError, Expr.SyntaxError.shift, Span.shift_shift]

@[simp] theorem Expression.shift_zero (e : Expression) : e.shift 0 = e := by
  obtain ⟨source, offset, parsed⟩ := e
  cases parsed <;> rfl

mutual

def Instruction.shift (n : Nat) : Instruction → Instruction
  | .literal text => .literal text
  | .print e => .print (e.shift n)
  | .branch arms => .branch (Arm.shiftAll n arms)
  | .loop index value collection body =>
    .loop index value (collection.shift n) (Instruction.shiftAll n body)
  | .embed path context => .embed path (context.map (Expression.shift n))

def Instruction.shiftAll (n : Nat) : List Instruction → List Instruction
  | [] => []
  | i :: is => i.shift n :: Instruction.shiftAll n is

def Arm.shiftAll (n : Nat) : List Arm → List Arm
  | [] => []
  | .mk guard body :: arms =>
    .mk (guard.map (Expression.shift n)) (Instruction.shiftAll n body) :: Arm.shiftAll n arms

end

mutual

theorem Instruction.shift_zero : ∀ i : Instruction, i.shift 0 = i
  | .literal _ => rfl
  | .print e => by rw [Instruction.shift, e.shift_zero]
  | .branch arms => by rw [Instruction.shift, Arm.shiftAll_zero arms]
  | .loop index value collection body => by
    rw [Instruction.shift, collection.shift_zero, Instruction.shiftAll_zero body]
  | .embed path context => by cases context <;> simp [Instruction.shift]

theorem Instruction.shiftAll_zero : ∀ is : List Instruction, Instruction.shiftAll 0 is = is
  | [] => rfl
  | i :: is => by rw [Instruction.shiftAll, i.shift_zero, Instruction.shiftAll_zero is]

theorem Arm.shiftAll_zero : ∀ arms : List Arm, Arm.shiftAll 0 arms = arms
  | [] => rfl
  | .mk guard body :: arms => by
    rw [Arm.shiftAll, Instruction.shiftAll_zero body, Arm.shiftAll_zero arms]
    cases guard <;> simp

end

theorem Arm.header_shift (n : Nat) (first : Bool) (guard : Option Expression) :
    header first (guard.map (Expression.shift n)) = (header first guard).shift n := by
  cases guard <;> cases first <;> rfl

mutual

theorem Instruction.tokens_shift (n : Nat) :
    ∀ i : Instruction, (i.shift n).tokens = i.tokens.map (Token.shift n)
  | .literal _ => rfl
  | .print _ => rfl
  | .branch arms => by
    rw [Instruction.shift, Instruction.tokens, Arm.tokensAll_shift n true arms, Instruction.tokens,
      List.map_append]
    rfl
  | .loop index value collection body => by
    rw [Instruction.shift, Instruction.tokens, Instruction.tokensAll_shift n body,
      Instruction.tokens, List.map_cons, List.map_append]
    rfl
  | .embed path context => by cases context <;> rfl

theorem Instruction.tokensAll_shift (n : Nat) : ∀ is : List Instruction,
    Instruction.tokensAll (Instruction.shiftAll n is) =
      (Instruction.tokensAll is).map (Token.shift n)
  | [] => rfl
  | i :: is => by
    rw [Instruction.shiftAll, Instruction.tokensAll, i.tokens_shift n,
      Instruction.tokensAll_shift n is, Instruction.tokensAll, List.map_append]

theorem Arm.tokensAll_shift (n : Nat) (first : Bool) : ∀ arms : List Arm,
    Arm.tokensAll first (Arm.shiftAll n arms) = (Arm.tokensAll first arms).map (Token.shift n)
  | [] => rfl
  | .mk guard body :: arms => by
    rw [Arm.shiftAll, Arm.tokensAll, Arm.header_shift, Instruction.tokensAll_shift n body,
      Arm.tokensAll_shift n false arms, Arm.tokensAll, List.map_cons, List.map_append]

end

def Arm.shift (n : Nat) (a : Arm) : Arm :=
  .mk (a.guard.map (Expression.shift n)) (Instruction.shiftAll n a.body)

theorem Arm.shiftAll_eq_map (n : Nat) (arms : List Arm) :
    Arm.shiftAll n arms = arms.map (Arm.shift n) := by
  induction arms with
  | nil => rfl
  | cons a arms ih =>
    obtain ⟨guard, body⟩ := a
    rw [Arm.shiftAll, ih]
    rfl

theorem Arm.Chained.shift {arms : List Arm} (h : Chained arms) (n : Nat) :
    Chained (Arm.shiftAll n arms) := by
  have hguard (a : Arm) (ha : a.guard.isSome) : (a.shift n).guard.isSome := by
    simpa [Arm.shift, Arm.guard] using ha
  obtain ⟨⟨a, ha, hg⟩, hd⟩ := h
  rw [shiftAll_eq_map]
  refine ⟨⟨a.shift n, by rw [List.head?_map, ha]; rfl, hguard a hg⟩, ?_⟩
  rw [← List.map_dropLast]
  intro b hb
  obtain ⟨c, hc, rfl⟩ := List.mem_map.1 hb
  exact hguard c (hd c hc)

mutual

theorem Instruction.WellFormed.shift (n : Nat) :
    ∀ i : Instruction, i.WellFormed → (i.shift n).WellFormed
  | .literal _, _ => trivial
  | .print _, h => Expression.Faithful.shift h n
  | .branch arms, h => ⟨h.1.shift n, Arm.AllWellFormed.shift n arms h.2⟩
  | .loop _ _ _ body, h => ⟨h.1.shift n, Instruction.AllWellFormed.shift n body h.2⟩
  | .embed _ none, _ => by simp [Instruction.shift, Instruction.WellFormed]
  | .embed _ (some e), h => by
    simpa [Instruction.shift, Instruction.WellFormed] using (h e rfl).shift n

theorem Instruction.AllWellFormed.shift (n : Nat) : ∀ is : List Instruction,
    Instruction.AllWellFormed is → Instruction.AllWellFormed (Instruction.shiftAll n is)
  | [], _ => trivial
  | i :: is, h => ⟨Instruction.WellFormed.shift n i h.1, Instruction.AllWellFormed.shift n is h.2⟩

theorem Arm.AllWellFormed.shift (n : Nat) : ∀ arms : List Arm,
    Arm.AllWellFormed arms → Arm.AllWellFormed (Arm.shiftAll n arms)
  | [], _ => trivial
  | .mk none body :: arms, h =>
    ⟨by simp, Instruction.AllWellFormed.shift n body h.2.1, Arm.AllWellFormed.shift n arms h.2.2⟩
  | .mk (some e) body :: arms, h =>
    ⟨by simpa using (h.1 e rfl).shift n, Instruction.AllWellFormed.shift n body h.2.1,
      Arm.AllWellFormed.shift n arms h.2.2⟩

end

theorem Instruction.eq_literal_of_head {i : Instruction} {text : String} {ts us : List Token}
    (h : i.tokens ++ ts = .literal text :: us) : i = .literal text ∧ ts = us := by
  cases i with
  | literal text' => cases h; exact ⟨rfl, rfl⟩
  | branch arms =>
    cases arms with
    | nil => cases h
    | cons a arms =>
      obtain ⟨guard, body⟩ := a
      cases guard <;> cases h
  | _ => cases h

theorem Instruction.eq_literal_of_last {i : Instruction} {text : String} {ts us : List Token}
    (h : ts ++ i.tokens = us ++ [.literal text]) : i = .literal text ∧ ts = us := by
  have hlast (rest : List Token) (t : Token) (ht : i.tokens = rest ++ [t]) :
      t = .literal text ∧ ts ++ rest = us := by
    rw [ht, ← List.append_assoc] at h
    obtain ⟨h1, h2⟩ := List.append_inj' h rfl
    exact ⟨by simpa using h2, h1⟩
  cases i with
  | literal text' =>
    obtain ⟨ht, hts⟩ := hlast [] _ rfl
    cases ht
    exact ⟨rfl, by simpa using hts⟩
  | print e => cases (hlast [] _ rfl).1
  | branch arms => cases (hlast _ _ rfl).1
  | loop index value collection body =>
    cases (hlast (.forStart index value collection.payload :: tokensAll body) _ rfl).1
  | embed path context => cases (hlast [] _ rfl).1

/-- Trees whose tokens may have a literal merged at the seam are trees that may have one. -/
theorem Instruction.exists_joined {is js : List Instruction} {us : List Token}
    (h : Joins Token.literal (tokensAll is) (tokensAll js) us) (hi : AllWellFormed is)
    (hj : AllWellFormed js) :
    ∃ ks, AllWellFormed ks ∧ tokensAll ks = us ∧ Joins Instruction.literal is js ks := by
  generalize hx : tokensAll is = xs at h
  generalize hy : tokensAll js = ys at h
  cases h with
  | apart =>
    exact ⟨is ++ js, by simpa using ⟨hi, hj⟩, by rw [tokensAll_append, hx, hy], .apart is js⟩
  | merged xs ys a b =>
    obtain rfl | ⟨is, i, rfl⟩ := is.eq_nil_or_concat
    · simp [tokensAll] at hx
    · rw [List.concat_eq_append] at hx hi ⊢
      cases js with
      | nil => simp [tokensAll] at hy
      | cons j js =>
        obtain ⟨rfl, hxs⟩ := eq_literal_of_last (i := i) (by simpa [tokensAll] using hx)
        obtain ⟨rfl, hys⟩ := eq_literal_of_head hy
        rw [allWellFormed_append] at hi
        refine ⟨is ++ .literal (a ++ b) :: js, ?_, ?_, .merged is js a b⟩
        · exact (allWellFormed_append _ _).2 ⟨hi.1, trivial, hj.2⟩
        · rw [tokensAll_append, hxs, ← hys]
          rfl

theorem Template.compile_eq_ok_iff {name : Option String} {source : String} {t : Template} :
    Template.compile name source = .ok t ↔
      ∃ ps, pieces source = .ok ps ∧ assemble ps = .ok t.instructions ∧ t.name = name := by
  unfold Template.compile
  cases pieces source with
  | error e => simp [bind, Except.bind]
  | ok ps =>
    cases ha : assemble ps with
    | error e => simp [ha, bind, Except.bind]
    | ok is =>
      simp only [ha, bind, Except.bind, pure, Except.pure, Except.ok.injEq]
      constructor
      · rintro rfl
        exact ⟨ps, rfl, ha, rfl⟩
      · rintro ⟨_, rfl, hi, rfl⟩
        rw [ha] at hi
        cases hi
        rfl

theorem Template.compile_append {name : Option String} {s₁ s₂ : String} {t₁ t₂ : Template}
    (h₁ : Template.compile name s₁ = .ok t₁) (h₂ : Template.compile name s₂ = .ok t₂)
    (he : EndsPlain s₁.toList) :
    ∃ t, Template.compile name (s₁ ++ s₂) = .ok t ∧
      Joins .literal t₁.instructions
        (Instruction.shiftAll (Text.byteLength s₁.toList) t₂.instructions) t.instructions := by
  obtain ⟨ps, hp, hi, -⟩ := Template.compile_eq_ok_iff.1 h₁
  obtain ⟨qs, hq, hj, -⟩ := Template.compile_eq_ok_iff.1 h₂
  obtain ⟨rs, hr, hjoin⟩ := pieces_append hp hq he
  obtain ⟨hti, hwi⟩ := Blocks.assemble_ok hi
  obtain ⟨htj, hwj⟩ := Blocks.assemble_ok hj
  rw [← hti, ← htj, ← Instruction.tokensAll_shift] at hjoin
  obtain ⟨ks, hwk, htk, hk⟩ :=
    Instruction.exists_joined hjoin hwi (Instruction.AllWellFormed.shift _ _ hwj)
  exact ⟨⟨name, ks⟩, Template.compile_eq_ok_iff.2
    ⟨rs, hr, Blocks.assemble_tokensAll hwk htk.symm, rfl⟩, hk⟩

end Stencil
