import Stencil.Proofs.Engine.Pages
import Stencil.Proofs.Eval.Leniency
import Stencil.Proofs.Render.Simulation
set_option autoImplicit false

namespace Stencil.Engine

def withUndefined (e : Engine) (u : Undefined) : Engine := { e with world.settings.undefined := u }

/-- Both have the same store all along. Nothing is asked once the strict one has found a name that
is not bound. -/
def repairing : Simulation Store Store where
  states := Eq
  excused h := ∃ n, h = .error (.render (.undefinedVariable n))
  halts := Eq
  halts_self _ := rfl

theorem follows_ofEval_repaired {α : Type} {x y : Except RenderError α} (h : Repaired x y) :
    repairing.Follows (Run.ofEval x) (Run.ofEval y) := by
  obtain ⟨n, rfl⟩ | rfl := h
  · intro s t _
    cases y with
    | ok v => exact ⟨n, rfl⟩
    | error e => exact .inl ⟨n, rfl⟩
  · exact Simulation.follows_ofEval y

theorem hosts_repairing (e : Engine) :
    repairing.Hosts (e.withUndefined .strict).world.host (e.withUndefined .lenient).world.host where
  eval name scope x := follows_ofEval_repaired (x.eval_lenient e.world.functions scope name)
  limit := rfl
  load path := Simulation.follows_self (e.world.loadIncluded path)

theorem eq_of_answers_repairing {x y : Except Halt String × Store} (h : repairing.Answers x y)
    (hx : ∀ n, x.1 ≠ .error (.error (.render (.undefinedVariable n)))) : y = x := by
  have hunexcused : ∀ k, x.1 = .error k → ¬ repairing.excused k := by
    rintro k hk ⟨n, rfl⟩
    exact hx n hk
  exact Simulation.eq_of_answers_excusing h hunexcused

theorem renderTemplate_withUndefined (e : Engine) (t : Template) (context : Value)
    (h : ∀ n, ((e.withUndefined .strict).renderTemplate t context).1 ≠
      .error (.error (.render (.undefinedVariable n)))) :
    ((e.withUndefined .lenient).renderTemplate t context).1 =
        ((e.withUndefined .strict).renderTemplate t context).1 ∧
      ((e.withUndefined .lenient).renderTemplate t context).2.store =
        ((e.withUndefined .strict).renderTemplate t context).2.store := by
  have hfollows := Simulation.follows_render e.hosts_repairing e.world.levels t context
    e.store e.store rfl
  have heq := eq_of_answers_repairing hfollows h
  have houtcome := congrArg Prod.fst heq
  have hstore := congrArg Prod.snd heq
  exact ⟨houtcome, hstore⟩

theorem openPage_withUndefined (e : Engine) (u : Undefined) (page : Page) :
    (e.withUndefined u).openPage page =
      ((e.openPage page).1, (e.openPage page).2.withUndefined u) := by
  cases page <;> rfl

/-- A lenient engine renders a page to the same end as a strict one, with the same text or the same
error and with the same store, unless the strict one ends with a name that is not bound. -/
theorem lenient_eq_strict (e : Engine) (page : Page) (context : Value)
    (h : ∀ n, ((e.withUndefined .strict).renderPage page context).1 ≠
      .error (.error (.render (.undefinedVariable n)))) :
    ((e.withUndefined .lenient).renderPage page context).1 =
        ((e.withUndefined .strict).renderPage page context).1 ∧
      ((e.withUndefined .lenient).renderPage page context).2.store =
        ((e.withUndefined .strict).renderPage page context).2.store := by
  simp only [renderPage_eq, openPage_withUndefined] at h ⊢
  cases ho : (e.openPage page).1 with
  | error cause => exact ⟨rfl, rfl⟩
  | ok t =>
    simp only [ho] at h
    exact renderTemplate_withUndefined _ t context h

theorem type_error_lenient_eq_strict :
    let title : Expr := .ident "title"
    let row : Template :=
      ⟨some "row", [.print ⟨"", 0, .ok (.array [.member title "size", .ident "missing"])⟩]⟩
    let page : Template :=
      ⟨some "page", [.print ⟨"", 0, .ok (.binary .or title (.ident "missing"))⟩,
        .embed "row" (some ⟨"", 0, .ok (.object [("title", title)])⟩)]⟩
    let e : Engine := ⟨⟨⟨[]⟩, [], {}, 1⟩, ⟨[("page", ⟨page, 0⟩), ("row", ⟨row, 1⟩)], 2⟩⟩
    let context : Value := .object [("title", .string "T")]
    let error : Halt := .error (.render (.type (.member "size" .string)))
    ((e.withUndefined .strict).renderPage (.named "page") context).1 = .error error ∧
      ((e.withUndefined .lenient).renderPage (.named "page") context).1 = .error error := by
  intro title row page e context error
  have hstrict : ((e.withUndefined .strict).renderPage (.named "page") context).1 = .error error :=
    rfl
  refine ⟨hstrict, ?_⟩
  have hsame := lenient_eq_strict e (.named "page") context fun n => by rw [hstrict]; simp [error]
  rw [hsame.1, hstrict]

end Stencil.Engine
