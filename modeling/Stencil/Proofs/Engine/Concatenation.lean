import Stencil.Proofs.Engine.History
import Stencil.Proofs.Render.Places
set_option autoImplicit false

/-!
# Sources one behind the other

Two sources in a row render to both texts in a row. Main statements: `Engine.outcome_joined`, on the
compiled templates, and `Engine.renderSource_append`.
-/

namespace Stencil

namespace Renderer

variable {σ : Type} (r : Renderer σ) (scope : Scope)

theorem runAll_append (is js : List Instruction) :
    r.runAll scope (is ++ js) = do
      let s ← r.runAll scope is
      let t ← r.runAll scope js
      return s ++ t := by
  induction is with
  | nil => simp only [List.nil_append, runAll, pure_bind, String.empty_append, bind_pure]
  | cons i is ih =>
    simp only [List.cons_append, runAll, ih, bind_assoc, pure_bind, String.append_assoc]

theorem runAll_joined {is js ks : List Instruction} (h : Markup.Joins .literal is js ks) :
    r.runAll scope ks = do
      let s ← r.runAll scope is
      let t ← r.runAll scope js
      return s ++ t := by
  cases h with
  | apart => exact runAll_append r scope is js
  | merged is js a b =>
    simp only [runAll_append, runAll, run, bind_assoc, pure_bind, String.append_assoc]
    simp

end Renderer

theorem Template.renderWith_joined {σ : Type} {name : Option String} {is js ks : List Instruction}
    (h : Markup.Joins .literal is js ks) (st : Setting) (f : String → Value → Run σ String)
    (context : Value) :
    Template.renderWith ⟨name, ks⟩ st f context = do
      let s ← Template.renderWith ⟨name, is⟩ st f context
      let t ← Template.renderWith ⟨name, js⟩ st f context
      return s ++ t := by
  cases context with
  | object fields => exact Renderer.runAll_joined _ _ h
  | _ => rfl

theorem Run.exec_bind_unit {α β : Type} (m : Run Unit α) (f : α → Run Unit β) :
    ((m >>= f).exec ()).1 = (m.exec ()).1 >>= fun a => ((f a).exec ()).1 := by
  rw [exec_bind]
  rcases m.exec () with ⟨h | a, ⟨⟩⟩ <;> rfl

def Catalogue.Named (c : Catalogue) : Prop := ∀ name t, c name = .ok t → t.name = some name

/-- No error of an include names a place in the source that is rendered: by induction on the levels,
as what is loaded has a name. -/
theorem Catalogue.Named.embedAt_moved {c : Catalogue} (hc : c.Named) {h : Host Unit}
    (hload : h.load = c.load) (n levels depth : Nat) (path : String) (context : Value) :
    h.embedAt levels depth path context =
      (h.embedAt levels depth path context).adapt (Halt.moved n) := by
  induction levels generalizing depth path context with
  | zero =>
    rw [Host.embedAt]
    cases h.settings.exceeded? depth <;> rfl
  | succ levels ih =>
    rw [Host.embedAt]
    cases h.settings.exceeded? depth with
    | some limit => rfl
    | none =>
      simp only [hload, Catalogue.load]
      cases ht : c path with
      | error e => rfl
      | ok t =>
        have hmoves := Renderer.moves_named h.setting path (ih (depth + 1))
        rw [← hc path t ht] at hmoves
        have hshift := Template.renderWith_shift hmoves context
        rwa [Instruction.shiftAll_zero] at hshift

namespace Engine

theorem named_after (settings : Settings) (room : Nat) (ops : List Operation) :
    ((ofSettings settings room).after ops).effective.Named := by
  intro name t ht
  simp only [effective, Store.effective, Registry.compile] at ht
  split at ht
  · next c hc =>
    obtain ⟨_, _, _, _, _, _, _, _, _, hcompile⟩ := exists_first_load settings room hc
    cases ht
    exact Template.name_of_compile hcompile
  · split at ht
    · cases ht
    · exact Template.name_of_compile ht

/-- The errors of the second template are those of a source that stands further back. -/
theorem outcome_joined {e : Engine} (he : e.effective.Named) {n : Nat} {t₁ t₂ t : Template}
    (h₁ : t₁.name = none) (h₂ : t₂.name = none) (h : t.name = none)
    (hj : Markup.Joins .literal t₁.instructions (Instruction.shiftAll n t₂.instructions)
      t.instructions) (context : Value) :
    e.outcome context (.ok t) = do
      let o₁ ← e.outcome context (.ok t₁)
      let o₂ ← (e.outcome context (.ok t₂)).mapError (Halt.moved n)
      return o₁ ++ o₂ := by
  obtain ⟨_, is⟩ := t₁
  obtain ⟨_, js⟩ := t₂
  obtain ⟨_, ks⟩ := t
  obtain rfl : _ = none := h₁
  obtain rfl : _ = none := h₂
  obtain rfl : _ = none := h
  have hembed := he.embedAt_moved (h := e.reference) rfl n e.world.levels 1
  have hshift := Template.renderWith_shift (t := ⟨none, js⟩)
    (Renderer.moves_unnamed e.reference.setting hembed) context
  have hrender : e.reference.render e.world.levels ⟨none, ks⟩ context = do
      let s ← e.reference.render e.world.levels ⟨none, is⟩ context
      let t ← (e.reference.render e.world.levels ⟨none, js⟩ context).adapt (Halt.moved n)
      return s ++ t := by
    simp only [Host.render, ← hshift]
    exact Template.renderWith_joined hj _ _ context
  simp only [outcome, hrender, Run.exec_bind_unit, Run.exec_adapt]
  rfl

/-- Two sources that compile do so one behind the other, and render to both texts, or with the error
of the first, or else with that of the second. A syntax error of the second source itself names a place
that is further back by the length of the first. The first must not break off within an opener or an
escape, which would run on into the second. -/
theorem renderSource_append (settings : Settings) (room : Nat) (ops : List Operation)
    (s₁ s₂ : String) (context : Value) (h₁ : ∃ t, compileSource s₁ = .ok t)
    (h₂ : ∃ t, compileSource s₂ = .ok t) (hopener : s₁.toList.getLast? ≠ some '$')
    (hescape : s₁.toList.getLast? ≠ some '\\') :
    let e := (ofSettings settings room).after ops
    let first := e.renderSource s₁ context
    let second := first.2.renderSource s₂ context
    let joined := e.renderSource (s₁ ++ s₂) context
    (∃ t, compileSource (s₁ ++ s₂) = .ok t) ∧
    (∀ o₁ o₂, first.1 = .ok o₁ → second.1 = .ok o₂ → joined.1 = .ok (o₁ ++ o₂)) ∧
    (∀ h, first.1 = .error h → joined.1 = .error h) ∧
    (∀ o₁ h, first.1 = .ok o₁ → second.1 = .error h →
      joined.1 = .error (h.moved (Text.byteLength s₁.toList))) := by
  intro e first second joined
  obtain ⟨t₁, h₁⟩ := h₁
  obtain ⟨t₂, h₂⟩ := h₂
  have hends : Markup.EndsPlain s₁.toList := by
    intro c hc
    rw [Option.mem_def] at hc
    rw [hc] at hopener hescape
    exact ⟨fun h => hopener (congrArg some h), fun h => hescape (congrArg some h)⟩
  obtain ⟨t, ht, hjoins⟩ := Template.compile_append h₁ h₂ hends
  obtain ⟨hfirst, hfilled⟩ := e.renderSource_filled s₁ context
  have hsecond := (first.2.renderSource_filled s₂ context).1
  have hjoined := (e.renderSource_filled (s₁ ++ s₂) context).1
  rw [hfilled.outcome] at hsecond
  have hcompile : compileSource (s₁ ++ s₂) = .ok t := ht
  rw [hcompile, outcome_joined (named_after settings room ops) (Template.name_of_compile h₁)
    (Template.name_of_compile h₂) (Template.name_of_compile ht) hjoins, ← h₁, ← h₂, ← hfirst,
    ← hsecond] at hjoined
  refine ⟨⟨t, ht⟩, fun o₁ o₂ ho₁ ho₂ => ?_, fun h hh => ?_, fun o₁ h ho₁ hh => ?_⟩
  · rw [hjoined, ho₁, ho₂]
    rfl
  · rw [hjoined, hh]
    rfl
  · rw [hjoined, ho₁, hh]
    rfl

theorem bad_slot_appended :
    let e := (ofSettings {} 0).after [.set "a" "x"]
    let context : Value := .object [("x", .string "1")]
    let first := e.renderSource "$\x7bx\x7dé" context
    let second := first.2.renderSource "é $\x7b)\x7d" context
    let joined := e.renderSource ("$\x7bx\x7dé" ++ "é $\x7b)\x7d") context
    first.1 = .ok "1é" ∧
    ∃ err : Expr.SyntaxError, err.span = ⟨5, 6⟩ ∧
      second.1 = .error (.error (.render (.expression none ")" err))) ∧
      joined.1 = .error (.error (.render (.expression none ")" (err.shift 6)))) := by
  intro e context first second joined
  have hpieces₁ : Markup.pieces "$\x7bx\x7dé" = .ok [⟨.print ⟨"x", 2⟩, 0, 4⟩, ⟨.literal "é", 4, 6⟩] := by
    decide +kernel
  have hpieces₂ : Markup.pieces "é $\x7b)\x7d" = .ok [⟨.literal "é ", 0, 3⟩, ⟨.print ⟨")", 5⟩, 3, 7⟩] := by
    decide +kernel
  have h₁ : compileSource "$\x7bx\x7dé" =
      .ok ⟨none, [.print (Expression.compile "x" 2), .literal "é"]⟩ :=
    Template.compile_eq_ok_iff.2 ⟨_, hpieces₁, rfl, rfl⟩
  have h₂ : compileSource "é $\x7b)\x7d" =
      .ok ⟨none, [.literal "é ", .print (Expression.compile ")" 5)]⟩ :=
    Template.compile_eq_ok_iff.2 ⟨_, hpieces₂, rfl, rfl⟩
  have hfirst : first.1 = .ok "1é" := by decide +kernel
  obtain ⟨err, hspan, hsecond⟩ : ∃ err : Expr.SyntaxError, err.span = ⟨5, 6⟩ ∧
      second.1 = .error (.error (.render (.expression none ")" err))) := by
    refine ⟨⟨⟨5, 6⟩, some (.symbol .parenClose), [.symbol .bang, .symbol .minus, .symbol .plus,
      .symbol .bracketOpen, .symbol .braceOpen, .symbol .parenOpen]⟩, rfl, ?_⟩
    decide +kernel
  have happend := renderSource_append {} 0 [.set "a" "x"] "$\x7bx\x7dé" "é $\x7b)\x7d" context
    ⟨_, h₁⟩ ⟨_, h₂⟩ (by decide) (by decide)
  exact ⟨hfirst, err, hspan, hsecond, happend.2.2.2 _ _ hfirst hsecond⟩

end Engine

end Stencil
