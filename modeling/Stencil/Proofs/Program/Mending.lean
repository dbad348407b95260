import Mathlib.Data.List.Forall2
import Stencil.Proofs.Markup.TickedSlots
import Stencil.Proofs.Program.Joining
import Stencil.Proofs.Program.Likeness
set_option autoImplicit false

namespace Stencil

open Markup

section

variable (R : Expression → Expression → Prop)

/-- The two differ at most in the texts of their expressions, which stand in the relation when read. -/
inductive Markup.Token.Alike : Token → Token → Prop where
  | literal (text : String) : Alike (.literal text) (.literal text)
  | print {p q : Payload} : R (.ofPayload p) (.ofPayload q) → Alike (.print p) (.print q)
  | ifStart {p q : Payload} : R (.ofPayload p) (.ofPayload q) → Alike (.ifStart p) (.ifStart q)
  | elseIf {p q : Payload} : R (.ofPayload p) (.ofPayload q) → Alike (.elseIf p) (.elseIf q)
  | elsePart : Alike .elsePart .elsePart
  | endIf : Alike .endIf .endIf
  | forStart (index value : String) {p q : Payload} : R (.ofPayload p) (.ofPayload q) →
    Alike (.forStart index value p) (.forStart index value q)
  | endFor : Alike .endFor .endFor
  | embed (path : String) {p q : Option Payload} :
    Option.Rel (fun p q => R (.ofPayload p) (.ofPayload q)) p q →
    Alike (.embed path p) (.embed path q)

end

section

variable {R : Expression → Expression → Prop}

theorem exists_parts_of_forall₂ {α β : Type} {S : α → β → Prop} {xs ys : List α} {us : List β}
    (h : List.Forall₂ S (xs ++ ys) us) :
    ∃ vs ws, List.Forall₂ S xs vs ∧ List.Forall₂ S ys ws ∧ us = vs ++ ws := by
  have hfront := List.forall₂_take xs.length h
  have hback := List.forall₂_drop xs.length h
  rw [List.take_left] at hfront
  rw [List.drop_left] at hback
  exact ⟨_, _, hfront, hback, (List.take_append_drop xs.length us).symm⟩

theorem Arm.AllAlike.guards {as bs : List Arm} (h : Arm.AllAlike R as bs) :
    as.map (fun a => a.guard.isSome) = bs.map fun a => a.guard.isSome := by
  induction as generalizing bs with
  | nil => cases h; rfl
  | cons a as ih =>
    cases h with
    | cons hxy his has =>
      rw [List.map_cons, List.map_cons, ih has]
      cases hxy <;> rfl

theorem Arm.chained_iff {arms : List Arm} : Chained arms ↔
    (arms.map fun a => a.guard.isSome).head? = some true ∧
      ∀ b ∈ (arms.map fun a => a.guard.isSome).dropLast, b = true := by
  simp only [Chained, List.head?_map, Option.map_eq_some_iff, ← List.map_dropLast,
    List.forall_mem_map]

theorem Arm.exists_guard_alike {first : Bool} {x : Option Expression} (hx : ∀ e ∈ x, e.Faithful)
    {u : Token} (h : (header first x).Alike R u) :
    ∃ y, header first y = u ∧ (∀ e ∈ y, e.Faithful) ∧ Option.Rel R x y := by
  cases x with
  | none =>
    cases h
    exact ⟨none, rfl, by simp, .none⟩
  | some e =>
    have he : Expression.ofPayload e.payload = e := hx e rfl
    cases first with
    | true =>
      cases h with
      | @ifStart _ q hR => exact ⟨some (.ofPayload q), rfl, by simp, .some (he ▸ hR)⟩
    | false =>
      cases h with
      | @elseIf _ q hR => exact ⟨some (.ofPayload q), rfl, by simp, .some (he ▸ hR)⟩

mutual

theorem Instruction.exists_alike : ∀ (i : Instruction), i.WellFormed → ∀ {us : List Token},
    List.Forall₂ (Token.Alike R) i.tokens us → ∃ j : Instruction, j.WellFormed ∧ j.tokens = us ∧ i.Alike R j
  | .literal text, _, us, h => by
    obtain ⟨u, _, hu, hnil, rfl⟩ := List.forall₂_cons_left_iff.1 h
    cases hnil
    cases hu
    exact ⟨.literal text, trivial, rfl, .literal text⟩
  | .print x, hx, us, h => by
    obtain ⟨u, _, hu, hnil, rfl⟩ := List.forall₂_cons_left_iff.1 h
    cases hnil
    have hx : Expression.ofPayload x.payload = x := hx
    cases hu with
    | @print _ q hR => exact ⟨.print (.ofPayload q), rfl, rfl, .print (hx ▸ hR)⟩
  | .embed path none, _, us, h => by
    obtain ⟨u, _, hu, hnil, rfl⟩ := List.forall₂_cons_left_iff.1 h
    cases hnil
    cases hu with
    | embed _ hR =>
      cases hR
      exact ⟨.embed path none, by simp [Instruction.WellFormed], rfl, .embed path .none⟩
  | .embed path (some x), hx, us, h => by
    obtain ⟨u, _, hu, hnil, rfl⟩ := List.forall₂_cons_left_iff.1 h
    cases hnil
    have hx : Expression.ofPayload x.payload = x := hx x rfl
    cases hu with
    | embed _ hR =>
      cases hR with
      | @some _ q hR =>
        exact ⟨.embed path (some (.ofPayload q)), by simp [Instruction.WellFormed], rfl,
          .embed path (.some (hx ▸ hR))⟩
  | .branch arms, ⟨hchain, harms⟩, us, h => by
    obtain ⟨vs, ws, hvs, hws, rfl⟩ := exists_parts_of_forall₂ h
    obtain ⟨u, _, hu, hnil, rfl⟩ := List.forall₂_cons_left_iff.1 hws
    cases hnil
    cases hu
    obtain ⟨bs, hbs, rfl, hR⟩ := Arm.exists_allAlike true arms harms hvs
    refine ⟨.branch bs, ⟨?_, hbs⟩, rfl, .branch hR⟩
    rw [Arm.chained_iff, ← hR.guards]
    exact Arm.chained_iff.1 hchain
  | .loop index value x body, ⟨hx, hbody⟩, us, h => by
    obtain ⟨u, us, hu, hus, rfl⟩ := List.forall₂_cons_left_iff.1 h
    obtain ⟨vs, ws, hvs, hws, rfl⟩ := exists_parts_of_forall₂ hus
    obtain ⟨w, _, hw, hnil, rfl⟩ := List.forall₂_cons_left_iff.1 hws
    cases hnil
    cases hw
    have hx : Expression.ofPayload x.payload = x := hx
    obtain ⟨js, hjs, rfl, hR⟩ := Instruction.exists_allAlike body hbody hvs
    cases hu with
    | @forStart _ _ _ q hq =>
      exact ⟨.loop index value (.ofPayload q) js, ⟨rfl, hjs⟩, rfl, .loop index value (hx ▸ hq) hR⟩

theorem Instruction.exists_allAlike : ∀ (is : List Instruction), Instruction.AllWellFormed is →
    ∀ {us : List Token}, List.Forall₂ (Token.Alike R) (Instruction.tokensAll is) us →
      ∃ js, Instruction.AllWellFormed js ∧ Instruction.tokensAll js = us ∧ Instruction.AllAlike R is js
  | [], _, us, h => by
    cases h
    exact ⟨[], trivial, rfl, .nil⟩
  | i :: is, ⟨hi, his⟩, us, h => by
    obtain ⟨vs, ws, hvs, hws, rfl⟩ := exists_parts_of_forall₂ h
    obtain ⟨j, hj, rfl, hij⟩ := Instruction.exists_alike i hi hvs
    obtain ⟨js, hjs, rfl, hR⟩ := Instruction.exists_allAlike is his hws
    exact ⟨j :: js, ⟨hj, hjs⟩, rfl, .cons hij hR⟩

theorem Arm.exists_allAlike (first : Bool) : ∀ (arms : List Arm), Arm.AllWellFormed arms →
    ∀ {us : List Token}, List.Forall₂ (Token.Alike R) (Arm.tokensAll first arms) us →
      ∃ bs, Arm.AllWellFormed bs ∧ Arm.tokensAll first bs = us ∧ Arm.AllAlike R arms bs
  | [], _, us, h => by
    cases h
    exact ⟨[], trivial, rfl, .nil⟩
  | .mk x body :: arms, ⟨hx, hbody, harms⟩, us, h => by
    obtain ⟨u, us, hu, hus, rfl⟩ := List.forall₂_cons_left_iff.1 h
    obtain ⟨vs, ws, hvs, hws, rfl⟩ := exists_parts_of_forall₂ hus
    obtain ⟨y, rfl, hy, hxy⟩ := Arm.exists_guard_alike hx hu
    obtain ⟨js, hjs, rfl, hR⟩ := Instruction.exists_allAlike body hbody hvs
    obtain ⟨bs, hbs, rfl, hRs⟩ := Arm.exists_allAlike false arms harms hws
    exact ⟨.mk y js :: bs, ⟨hy, hjs, hbs⟩, rfl, .cons hxy hR hRs⟩

end

theorem Template.compile_alike {name name' : Option String} {source source' : String}
    {ps qs : List Piece} {t : Template} (hp : pieces source = .ok ps) (hq : pieces source' = .ok qs)
    (h : List.Forall₂ (Token.Alike R) (ps.map Piece.token) (qs.map Piece.token))
    (ht : compile name source = .ok t) :
    ∃ u, compile name' source' = .ok u ∧ Instruction.AllAlike R t.instructions u.instructions := by
  obtain ⟨ps', hp', hi, -⟩ := compile_eq_ok_iff.1 ht
  obtain rfl : ps = ps' := Except.ok.inj (hp.symm.trans hp')
  obtain ⟨htokens, hwf⟩ := Blocks.assemble_ok hi
  rw [← htokens] at h
  obtain ⟨js, hjs, htokens', hR⟩ := Instruction.exists_allAlike t.instructions hwf h
  exact ⟨⟨name', js⟩, compile_eq_ok_iff.2
    ⟨qs, hq, Blocks.assemble_tokensAll hjs htokens'.symm, rfl⟩, hR⟩

variable (hsame : ∀ p q : Payload, p.text = q.text → R (.ofPayload p) (.ofPayload q))

include hsame

theorem Markup.Token.alike_shift (v : Token) (n m : Nat) : (v.shift n).Alike R (v.shift m) := by
  have hshift (p : Payload) : R (.ofPayload (p.shift n)) (.ofPayload (p.shift m)) :=
    hsame _ _ rfl
  cases v with
  | literal text => exact .literal text
  | print p => exact .print (hshift p)
  | ifStart p => exact .ifStart (hshift p)
  | elseIf p => exact .elseIf (hshift p)
  | elsePart => exact .elsePart
  | endIf => exact .endIf
  | forStart index value p => exact .forStart index value (hshift p)
  | endFor => exact .endFor
  | embed path p =>
    cases p with
    | none => exact .embed path .none
    | some p => exact .embed path (.some (hshift p))

theorem Markup.Token.alike_refl (v : Token) : v.Alike R v := by
  have hzero := v.alike_shift hsame 0 0
  rwa [v.shift_zero] at hzero

theorem Template.compile_ticked {u : Usage} {x y : String} (hx : u.Quotes x) (hy : u.Quotes y)
    (hxy : ∀ p q : Payload, p.text = x → q.text = y → R (.ofPayload p) (.ofPayload q))
    {s₁ s₂ : String} {ps qs : List Piece} (h₁ : pieces s₁ = .ok ps) (h₂ : pieces s₂ = .ok qs)
    (he : EndsPlain s₁.toList) {name : Option String} {t : Template}
    (ht : compile name (s₁ ++ u.ticked x ++ s₂) = .ok t) :
    ∃ t', compile name (s₁ ++ u.ticked y ++ s₂) = .ok t' ∧
      Instruction.AllAlike R t.instructions t'.instructions := by
  obtain ⟨n, rs, hrs, hr⟩ := pieces_around h₁ h₂ he hx
  obtain ⟨m, us, hus, hu⟩ := pieces_around h₁ h₂ he hy
  refine compile_alike hrs hus ?_ ht
  rw [hr, hu]
  have hslot : ((u.tickedToken x).shift (Text.byteLength s₁.toList)).Alike R
      ((u.tickedToken y).shift (Text.byteLength s₁.toList)) := by
    cases u with
    | alone | print => exact .print (hxy _ _ rfl rfl)
    | ifStart => exact .ifStart (hxy _ _ rfl rfl)
    | elseIf => exact .elseIf (hxy _ _ rfl rfl)
    | forStart index value => exact .forStart index value (hxy _ _ rfl rfl)
    | embed path => exact .embed path (.some (hxy _ _ rfl rfl))
  refine List.rel_append (List.forall₂_same.2 fun v _ => v.alike_refl hsame) (.cons hslot ?_)
  rw [List.forall₂_map_left_iff, List.forall₂_map_right_iff]
  exact List.forall₂_same.2 fun v _ => v.alike_shift hsame n m

end

/-- The second may stand in place of the first: it is the same, if the first can be read. -/
def Expression.Mended (x y : Expression) : Prop := ∀ tree, x.parsed = .ok tree → y.parsed = .ok tree

theorem Expression.mended_of_text {p q : Payload} (h : p.text = q.text) :
    (ofPayload p).Mended (ofPayload q) := by
  intro tree htree
  simp only [ofPayload, compile, ← h] at htree ⊢
  cases hp : Expr.parse p.text with
  | ok x =>
    rw [hp] at htree
    exact htree
  | error e =>
    rw [hp] at htree
    cases htree

def Template.Mended (t u : Template) : Prop :=
  t.name = u.name ∧ Instruction.AllAlike Expression.Mended t.instructions u.instructions

theorem Template.mended_of_compile {name : Option String} {source source' : String} {t u : Template}
    (ht : compile name source = .ok t) (hu : compile name source' = .ok u)
    (h : Instruction.AllAlike Expression.Mended t.instructions u.instructions) : t.Mended u := by
  obtain ⟨-, -, -, htname⟩ := compile_eq_ok_iff.1 ht
  obtain ⟨-, -, -, huname⟩ := compile_eq_ok_iff.1 hu
  exact ⟨htname.trans huname.symm, h⟩

/-- A source compiles if one does whose tokens are the same but for what their expressions say. -/
theorem Template.compile_rows {source source' : String} {ps qs : List Piece}
    (hp : pieces source = .ok ps) (hq : pieces source' = .ok qs)
    (h : List.Forall₂ (Token.Alike fun _ _ => True) (ps.map Piece.token) (qs.map Piece.token))
    {name : Option String} {t : Template} (ht : compile name source = .ok t) :
    ∃ u, compile name source' = .ok u ∧
      (List.Forall₂ (Token.Alike Expression.Mended) (ps.map Piece.token) (qs.map Piece.token) →
        t.Mended u) := by
  obtain ⟨u, hu, -⟩ := compile_alike hp hq h ht
  refine ⟨u, hu, fun hmended => ?_⟩
  obtain ⟨u', hu', hall⟩ := compile_alike hp hq hmended ht
  obtain rfl : u' = u := Except.ok.inj (hu'.symm.trans hu)
  exact mended_of_compile ht hu hall

theorem Template.compile_replaced {u : Usage} {x y : String} (hx : u.Quotes x) (hy : u.Quotes y)
    {s₁ s₂ : String} {ps qs : List Piece} (h₁ : pieces s₁ = .ok ps) (h₂ : pieces s₂ = .ok qs)
    (he : EndsPlain s₁.toList) {name : Option String} {t : Template}
    (ht : compile name (s₁ ++ u.ticked x ++ s₂) = .ok t) :
    ∃ t', compile name (s₁ ++ u.ticked y ++ s₂) = .ok t' ∧
      ((∀ tree, Expr.parse x ≠ .ok tree) → t.Mended t') := by
  obtain ⟨t', ht', -⟩ := compile_ticked (R := fun _ _ => True) (fun _ _ _ => trivial) hx hy
    (fun _ _ _ _ => trivial) h₁ h₂ he ht
  refine ⟨t', ht', fun hinvalid => ?_⟩
  have hxy (p q : Payload) (hp : p.text = x) (_ : q.text = y) :
      (Expression.ofPayload p).Mended (.ofPayload q) := by
    rintro tree htree
    have hparse : (Expr.parse p.text).mapError _ = .ok tree := htree
    rw [hp] at hparse
    cases hx : Expr.parse x with
    | ok tree' => exact absurd hx (hinvalid tree')
    | error e =>
      rw [hx] at hparse
      cases hparse
  obtain ⟨u', hu', hall⟩ := compile_ticked (fun _ _ => Expression.mended_of_text) hx hy hxy h₁ h₂ he
    ht
  obtain rfl : u' = t' := Except.ok.inj (hu'.symm.trans ht')
  exact mended_of_compile ht ht' hall

end Stencil
