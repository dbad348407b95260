import Stencil.Proofs.Engine.Calls
import Stencil.Proofs.Engine.Pages
import Stencil.Proofs.Program.Mending
set_option autoImplicit false

/-!
# Expressions that are never read

A text that is no expression does harm only where it is evaluated. Main statements:
`Simulation.follows_embedAt_mended`, by induction on the levels of includes, and
`Engine.renderPage_mended`.
-/

namespace Stencil

open Markup

/-- Both stand for templates, the second for one in which expressions have been replaced that could not
be read, or both fail with the same error. -/
def MendedResult : Except CompileError Template → Except CompileError Template → Prop
  | .ok t, .ok u => t.Mended u
  | .error cause, .error cause' => cause = cause'
  | _, _ => False

theorem MendedResult.refl (x : Except CompileError Template) : MendedResult x x := by
  cases x with
  | error cause => rfl
  | ok t => exact ⟨rfl, Instruction.allAlike_refl (fun _ _ h => h) t.instructions⟩

def Halt.IsSyntax (h : Halt) : Prop :=
  ∃ name source x, h = .error (.render (.expression name source x))

namespace Simulation

abbrev mending : Simulation Unit Unit := excusing Halt.IsSyntax

theorem follows_eval_mended {x y : Expression} (h : x.Mended y) (name : Option String)
    (st : Setting) (scope : Scope) :
    mending.Follows (Run.ofEval (x.eval name st scope)) (Run.ofEval (y.eval name st scope)) := by
  unfold Expression.eval Expression.tree
  cases hx : x.parsed with
  | ok tree =>
    rw [h tree hx]
    exact follows_ofEval _
  | error e =>
    have hexcused : mending.excused (.error (.render (.expression name x.source e))) :=
      ⟨name, x.source, e, rfl⟩
    exact follows_of_excused hexcused _

theorem follows_renderWith_mended {t u : Template} (h : t.Mended u) (st : Setting)
    {f g : String → Value → Run Unit String}
    (hfg : ∀ path context, mending.Follows (f path context) (g path context)) (context : Value) :
    mending.Follows (t.renderWith st f context) (u.renderWith st g context) := by
  obtain ⟨hname, hall⟩ := h
  have hrenderers : mending.RenderersOn Expression.Mended ⟨t.name, st, f⟩ ⟨u.name, st, g⟩ := by
    rw [hname]
    exact ⟨fun scope x y hxy => follows_eval_mended hxy _ st scope, hfg⟩
  cases context with
  | object fields => exact follows_allAlike hrenderers _ hall
  | _ => exact follows_fail _

section

variable {c d : Catalogue} (hcd : ∀ name, MendedResult (c name) (d name)) (fs : Functions)
  (st : Settings)

include hcd

theorem follows_embedAt_mended (levels depth : Nat) (path : String) (context : Value) :
    mending.Follows ((Host.mk fs st c.load).embedAt levels depth path context)
      ((Host.mk fs st d.load).embedAt levels depth path context) := by
  induction levels generalizing depth path context with
  | zero =>
    rw [Host.embedAt, Host.embedAt]
    cases st.exceeded? depth with
    | some limit => exact follows_fail _
    | none => exact follows_throw _
  | succ levels ih =>
    rw [Host.embedAt, Host.embedAt]
    cases st.exceeded? depth with
    | some limit => exact follows_fail _
    | none =>
      have hpath := hcd path
      simp only [Catalogue.load]
      generalize c path = x at hpath
      generalize d path = y at hpath
      rcases x with cause | t <;> rcases y with cause' | u
      · obtain rfl : cause = cause' := hpath
        exact follows_self _
      · exact hpath.elim
      · exact hpath.elim
      · exact follows_renderWith_mended hpath _ (ih (depth + 1)) context

theorem follows_render_mended (levels : Nat) {t u : Template} (h : t.Mended u) (context : Value) :
    mending.Follows ((Host.mk fs st c.load).render levels t context)
      ((Host.mk fs st d.load).render levels u context) :=
  follows_renderWith_mended h _ (follows_embedAt_mended hcd fs st levels 1) context

end

end Simulation

namespace Engine

/-- In the second engine expressions that could not be read have been replaced. -/
structure Mended (e e' : Engine) : Prop where
  effective : ∀ name, MendedResult (e.effective name) (e'.effective name)
  functions : e.world.functions = e'.world.functions
  settings : e.world.settings = e'.world.settings
  room : e.world.room = e'.world.room

variable {e e' : Engine}

theorem Mended.outcome (h : e.Mended e') {x y : Except CompileError Template}
    (hxy : MendedResult x y) {context : Value}
    (hunread : ∀ k, e.outcome context x = .error k → ¬ k.IsSyntax) :
    e'.outcome context y = e.outcome context x := by
  rcases x with cause | t <;> rcases y with cause' | u
  · obtain rfl : cause = cause' := hxy
    rfl
  · exact hxy.elim
  · exact hxy.elim
  · have hlevels : e.world.levels = e'.world.levels := by
      simp only [World.levels, h.settings, h.room]
    have hfollows := Simulation.follows_render_mended h.effective e.world.functions
      e.world.settings e.world.levels hxy context () () rfl
    have heq := Simulation.eq_of_answers_excusing hfollows hunread
    have houtcome := congrArg Prod.fst heq
    rw [h.functions, h.settings, hlevels] at houtcome
    simp only [Engine.outcome, reference, h.functions, h.settings, hlevels]
    exact houtcome

/-- Two sources for a name; a template that is kept under it stands in front of both. -/
theorem mended_set (e : Engine) {name source source' : String} {t t' : Template}
    (ht : Template.compile (some name) source = .ok t)
    (ht' : Template.compile (some name) source' = .ok t') (h : t.Mended t') :
    (e.set name source).Mended (e.set name source') := by
  refine ⟨fun other => ?_, rfl, rfl, rfl⟩
  have heffective (text : String) : (e.set name text).effective other =
      e.store.effective (e.registry.set name text) other := rfl
  rw [heffective, heffective, Store.effective, Store.effective]
  cases e.store.find? other with
  | some c => exact .refl _
  | none =>
    simp only [Registry.compile, Registry.get?_set]
    by_cases ho : other = name
    · rw [if_pos ho, if_pos ho, ho]
      dsimp only
      rw [ht, ht']
      exact h
    · rw [if_neg ho, if_neg ho]
      exact .refl _

theorem renderPage_outcome (e : Engine) (page : Page) (context : Value) :
    (e.renderPage page context).1 = e.outcome context (e.openPage page).1 := by
  cases page with
  | compiled t => exact (e.renderTemplate_filled t context).1
  | named name =>
    have hopen : (e.openPage (.named name)).1 = e.effective name := (e.compile_filled name).1
    rw [hopen]
    exact (e.render_filled name context).1
  | source text => exact (e.renderSource_filled text context).1

/-- Texts that are no expressions do not keep a source from compiling: between backticks any text may
stand, and in any slots that can be read. A render that does not fail with the syntax error of such a
text ends the same way, with the same output or the same error, once any of them have been replaced by
other texts, in the page and in the templates that it may include. -/
theorem renderPage_mended :
    (∀ (u : Usage) (x y s₁ s₂ : String) (ps qs : List Piece) (name : Option String) (t : Template),
      u.Quotes x → u.Quotes y → pieces s₁ = .ok ps → pieces s₂ = .ok qs → EndsPlain s₁.toList →
      Template.compile name (s₁ ++ u.ticked x ++ s₂) = .ok t →
      ∃ t', Template.compile name (s₁ ++ u.ticked y ++ s₂) = .ok t' ∧
        ((∀ tree, Expr.parse x ≠ .ok tree) → t.Mended t')) ∧
    (∀ (source source' : String) (ps qs : List Piece) (name : Option String) (t : Template),
      pieces source = .ok ps → pieces source' = .ok qs →
      List.Forall₂ (Token.Alike fun _ _ => True) (ps.map Piece.token) (qs.map Piece.token) →
      Template.compile name source = .ok t →
      ∃ t', Template.compile name source' = .ok t' ∧
        (List.Forall₂ (Token.Alike Expression.Mended) (ps.map Piece.token) (qs.map Piece.token) →
          t.Mended t')) ∧
    ∀ (e e' : Engine) (page page' : Page) (context : Value), e.Mended e' →
      MendedResult (e.openPage page).1 (e'.openPage page').1 →
      (∀ name source x, (e.renderPage page context).1 ≠
        .error (.error (.render (.expression name source x)))) →
      (e'.renderPage page' context).1 = (e.renderPage page context).1 := by
  refine ⟨fun u x y s₁ s₂ ps qs name t hx hy h₁ h₂ he ht => ?_,
    fun source source' ps qs name t hp hq h ht => ?_, fun e e' page page' context he hpage h => ?_⟩
  · exact Template.compile_replaced hx hy h₁ h₂ he ht
  · exact Template.compile_rows hp hq h ht
  · rw [renderPage_outcome, renderPage_outcome]
    refine he.outcome hpage ?_
    rintro _ hk ⟨name, source, x, rfl⟩
    rw [← renderPage_outcome] at hk
    exact h name source x hk

theorem untaken_arm_mended :
    let page : Page := .source "a $\x7binclude inner\x7d"
    let source (x : String) := "$\x7bif false\x7d" ++ Usage.alone.ticked x ++ "$\x7bendif\x7db"
    let e := (ofSettings {} 3).set "inner" (source ")")
    let e' := (ofSettings {} 3).set "inner" (source "1 +")
    (e.renderPage page (.object [])).1 = .ok "a b" ∧
      (e'.renderPage page (.object [])).1 = .ok "a b" := by
  intro page source e e'
  have hrender : (e.renderPage page (.object [])).1 = .ok "a b" := by decide +kernel
  have hpieces : pieces (source ")") = .ok [⟨.ifStart ⟨"false", 5⟩, 0, 11⟩,
      ⟨.print ⟨")", 15⟩, 11, 18⟩, ⟨.endIf, 18, 26⟩, ⟨.literal "b", 26, 27⟩] := by decide +kernel
  obtain ⟨t, ht⟩ : ∃ t, Template.compile (some "inner") (source ")") = .ok t :=
    ⟨⟨some "inner", _⟩, Template.compile_eq_ok_iff.2 ⟨_, hpieces, rfl, rfl⟩⟩
  have hfront : pieces "$\x7bif false\x7d" = .ok [⟨.ifStart ⟨"false", 5⟩, 0, 11⟩] := by
    decide +kernel
  have hbehind : pieces "$\x7bendif\x7db" = .ok [⟨.endIf, 0, 8⟩, ⟨.literal "b", 8, 9⟩] := by
    decide +kernel
  have hplain : EndsPlain "$\x7bif false\x7d".toList := by
    rintro _ ⟨⟩
    decide
  have hinvalid (tree : Expr) : Expr.parse ")" ≠ .ok tree := by
    have hparse : (Expr.parse ")").isOk = false := by decide +kernel
    intro h
    rw [h] at hparse
    cases hparse
  obtain ⟨t', ht', hmended⟩ := renderPage_mended.1 .alone ")" "1 +" _ _ _ _ (some "inner") t
    ⟨by decide, trivial⟩ ⟨by decide, trivial⟩ hfront hbehind hplain ht
  have he : e.Mended e' := mended_set _ ht ht' (hmended hinvalid)
  have hpage : MendedResult (e.openPage page).1 (e'.openPage page).1 :=
    .refl (compileSource "a $\x7binclude inner\x7d")
  refine ⟨hrender, ?_⟩
  rw [renderPage_mended.2.2 e e' page page (.object []) he hpage (by simp [hrender]), hrender]

end Engine

end Stencil
