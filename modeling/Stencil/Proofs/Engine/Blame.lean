import Stencil.Proofs.Engine.Concatenation
import Stencil.Proofs.Program.CompileErrors
import Stencil.Proofs.Render.Invariants
set_option autoImplicit false

/-!
# Which template is to blame

The error that ends a render may come up from far below, through any number of includes. It still names
the template that is at fault, with what is wrong there. Main statements: `Engine.keeps_embedAt`, by
induction on the levels of includes, and `Engine.renderTemplate_blames`.
-/

namespace Stencil

/-- The template has an expression with this text, which cannot be read for this reason. -/
def Template.Misspells (t : Template) (source : String) (x : Expr.SyntaxError) : Prop :=
  ∃ e ∈ t.expressions, e.source = source ∧ e.parsed = .error x

/-- What the error says of a template is so. The second argument holds of the templates that have been
run, each with the name that it bears. -/
def Error.Blames (c : Catalogue) (ran : Option String → Template → Prop) : Error → Prop
  | .compile _ => False
  | .embed (.notFound n) => c n = .error (.notFound n)
  | .embed (.compile n cause) => c n = .error cause ∧ ∀ m, cause ≠ .notFound m
  | .render (.expression name source x) => ∃ t, ran name t ∧ t.Misspells source x
  | _ => True

namespace Error

variable {c : Catalogue} {ran ran' : Option String → Template → Prop}

theorem Blames.mono {x : Error} (h : x.Blames c ran) (hran : ∀ name t, ran name t → ran' name t) :
    x.Blames c ran' := by
  unfold Blames at h ⊢
  split at h
  · exact h
  · exact h
  · exact h
  · obtain ⟨t, ht, hx⟩ := h
    exact ⟨t, hran _ t ht, hx⟩
  · trivial

theorem blames_render {err : RenderError} (h : err.isSyntax = false) :
    (render err).Blames c ran := by
  cases err <;> first | exact trivial | cases h

end Error

theorem Registry.compile_eq_error {r : Registry} {name : String} {cause : CompileError}
    (h : r.compile name = .error cause) :
    (r.get? name = none ∧ cause = .notFound name) ∨
      ∃ source, r.get? name = some source ∧ Template.compile (some name) source = .error cause := by
  unfold Registry.compile at h
  split at h
  · next hsource =>
    cases h
    exact .inl ⟨hsource, rfl⟩
  · next source hsource => exact .inr ⟨source, hsource, h⟩

theorem Template.ne_notFound_of_compile {name : Option String} {source : String}
    {cause : CompileError} (h : compile name source = .error cause) (m : String) :
    cause ≠ .notFound m := by
  obtain ⟨s, hs, -⟩ := exists_span_of_compile_error h
  rintro rfl
  cases hs

namespace Engine

variable {e : Engine}

theorem effective_eq_error {name : String} {cause : CompileError}
    (h : e.effective name = .error cause) :
    e.isCached name = false ∧
      ((e.get? name = none ∧ cause = .notFound name) ∨
        ∃ source, e.get? name = some source ∧
          Template.compile (some name) source = .error cause) := by
  simp only [effective, Store.effective] at h
  split at h
  · cases h
  · next hf => exact ⟨by simp [isCached, hf], Registry.compile_eq_error h⟩

theorem blames_ofCompile {path : String} {cause : CompileError}
    {ran : Option String → Template → Prop} (h : e.effective path = .error cause) :
    (Error.embed (.ofCompile path cause)).Blames e.effective ran := by
  obtain ⟨-, ⟨-, rfl⟩ | ⟨source, -, hsource⟩⟩ := effective_eq_error h
  · exact h
  · have hne := Template.ne_notFound_of_compile hsource
    have hcompile : IncludeError.ofCompile path cause = .compile path cause := by
      cases cause <;> first | rfl | exact absurd rfl (hne _)
    rw [hcompile]
    exact ⟨h, hne⟩

def Included (e : Engine) (names : List String) (name : Option String) (t : Template) : Prop :=
  ∃ m ∈ names, name = some m ∧ e.effective m = .ok t

/-- How far a run with includes has come: names have been noted, the given ones among them, and if it
has ended with an error, then that one blames what has been run. -/
def Blaming (e : Engine) (ran : List String → Option String → Template → Prop)
    (given : List String) (h : Option Halt) : Store × List String → Prop :=
  fun (s, log) => e.Noted s log ∧ given ⊆ log ∧
    ∀ err, h = some (.error err) → err.Blames e.effective (ran log)

variable {ran : List String → Option String → Template → Prop} {given : List String}

theorem blaming_error {s : Store} {log : List String} {err : Error} (hnoted : e.Noted s log)
    (hgiven : given ⊆ log) (h : err.Blames e.effective (ran log)) :
    e.Blaming ran given (some (.error err)) (s, log) := by
  refine ⟨hnoted, hgiven, ?_⟩
  rintro _ ⟨⟩
  exact h

theorem keeps_renderWith {st : Setting} {embed : String → Value → Run (Store × List String) String}
    {t : Template} (hran : ∀ names, given ⊆ names → ran names t.name t)
    (hembed : ∀ path context, Run.Keeps (e.Blaming ran given) (embed path context))
    (context : Value) : Run.Keeps (e.Blaming ran given) (t.renderWith st embed context) := by
  have hrender (err : RenderError) (herr : err.isSyntax = false) :
      ∀ s, e.Blaming ran given none s → e.Blaming ran given (some (.error (.render err))) s := by
    rintro ⟨s, log⟩ ⟨hnoted, hgiven, -⟩
    exact blaming_error hnoted hgiven (Error.blames_render herr)
  refine Template.keeps_renderWith ⟨fun scope x hx => ?_, hrender, ?_, hembed⟩ context
  · refine Run.keeps_ofEval fun err herr => ?_
    obtain hunread | ⟨y, hy, rfl⟩ := Expression.eval_eq_error herr
    · exact hrender err hunread
    · rintro ⟨s, log⟩ ⟨hnoted, hgiven, -⟩
      exact blaming_error hnoted hgiven ⟨t, hran log hgiven, x, hx, rfl, hy⟩
  · rintro k ⟨s, log⟩ ⟨hnoted, hgiven, -⟩
    exact blaming_error hnoted hgiven trivial

/-- By induction on the levels. What is loaded bears the name under which it is then noted. -/
theorem keeps_embedAt (he : e.effective.Named) (given : List String) (levels depth : Nat)
    (path : String) (context : Value) :
    Run.Keeps (e.Blaming e.Included given)
      (e.world.host.logged.embedAt levels depth path context) := by
  induction levels generalizing given depth path context with
  | zero =>
    rw [Host.embedAt]
    rintro ⟨s, log⟩ ⟨(hnoted : e.Noted s log), hgiven, -⟩
    cases e.world.host.logged.settings.exceeded? depth with
    | some limit => exact blaming_error hnoted hgiven trivial
    | none =>
      refine ⟨hnoted, hgiven, ?_⟩
      rintro _ ⟨⟩
  | succ levels ih =>
    rw [Host.embedAt]
    rintro ⟨s, log⟩ ⟨(hnoted : e.Noted s log), hgiven, -⟩
    cases e.world.host.logged.settings.exceeded? depth with
    | some limit => exact blaming_error hnoted hgiven trivial
    | none =>
      dsimp only
      rw [Run.exec_bind]
      obtain ⟨t, s', ht, hnoted, hl⟩ | ⟨cause, hcause, hl⟩ := hnoted.exec_load path
      · have hran (names : List String) (h : path :: given ⊆ names) :
            e.Included names t.name t :=
          ⟨path, h List.mem_cons_self, he path t ht, ht⟩
        have hinner : Run.Keeps (e.Blaming e.Included (path :: given))
            (t.renderWith e.world.host.logged.setting
              (e.world.host.logged.embedAt levels (depth + 1)) context) :=
          keeps_renderWith hran (ih (path :: given) (depth + 1)) context
        have hstart : path :: given ⊆ log ++ [path] := by
          refine List.cons_subset.2 ⟨by simp, ?_⟩
          exact List.subset_append_of_subset_left _ hgiven
        rw [hl]
        obtain ⟨hnoted, hgiven, hblames⟩ := hinner (s', log ++ [path]) ⟨hnoted, hstart, by simp⟩
        exact ⟨hnoted, List.subset_of_cons_subset hgiven, hblames⟩
      · rw [hl]
        exact blaming_error hnoted hgiven (blames_ofCompile hcause)

/-- The template itself, and those that one of these names stands for. -/
def Ran (e : Engine) (t : Template) (names : List String) (name : Option String)
    (u : Template) : Prop :=
  (name = t.name ∧ u = t) ∨ e.Included names name u

theorem renderTemplate_blames_ran (he : e.effective.Named) {t : Template} {context : Value}
    {err : Error} (h : (e.renderTemplate t context).1 = .error (.error err)) :
    err.Blames e.effective (e.Ran t (e.loads t context)) := by
  have hembed (path : String) (context : Value) : Run.Keeps (e.Blaming (e.Ran t) [])
      (e.world.host.logged.embedAt e.world.levels 1 path context) := by
    rintro s ⟨hnoted, hgiven, -⟩
    obtain ⟨hnoted, hgiven, hblames⟩ :=
      keeps_embedAt he [] e.world.levels 1 path context s ⟨hnoted, hgiven, by simp⟩
    exact ⟨hnoted, hgiven, fun err herr => (hblames err herr).mono fun _ _ => .inr⟩
  have hkeeps : Run.Keeps (e.Blaming (e.Ran t) [])
      (e.world.host.logged.render e.world.levels t context) :=
    keeps_renderWith (fun _ _ => .inl ⟨rfl, rfl⟩) hembed context
  have hlogged := Simulation.follows_render e.world.host.hosts_logged e.world.levels t context
    e.store (e.store, []) rfl
  rw [Simulation.answers_exact] at hlogged
  obtain ⟨-, -, hblames⟩ := hkeeps (e.store, []) ⟨e.noted_nil, by simp, by simp⟩
  refine hblames err ?_
  rw [← hlogged.1]
  exact congrArg Run.halt? h

/-- A render of a template does not fail as if that one did not compile. An include that is not found is
neither in the store nor registered; one that does not compile is registered with a source which fails
for that reason. A syntax error is that of an expression of the template, or else of one whose name has
been loaded, which is named. -/
theorem renderTemplate_blames (settings : Settings) (room : Nat) (ops : List Operation)
    (t : Template) (context : Value) (err : Error) :
    let e := (ofSettings settings room).after ops
    let rendered := e.renderTemplate t context
    rendered.1 = .error (.error err) →
      (∀ cause, err ≠ .compile cause) ∧
      (∀ n, err = .embed (.notFound n) →
        e.isCached n = false ∧ rendered.2.isCached n = false ∧ e.get? n = none) ∧
      (∀ n cause, err = .embed (.compile n cause) →
        (∃ source, e.get? n = some source ∧ Template.compile (some n) source = .error cause) ∧
          ∀ m, cause ≠ .notFound m) ∧
      ∀ name source x, err = .render (.expression name source x) →
        (name = t.name ∧ t.Misspells source x) ∨
          ∃ m ∈ e.loads t context, name = some m ∧
            ∃ u, e.effective m = .ok u ∧ u.Misspells source x := by
  intro e rendered h
  have hblames := renderTemplate_blames_ran (named_after settings room ops) h
  have hfilled := (e.renderTemplate_filled t context).2
  refine ⟨?_, ?_, ?_, ?_⟩
  · rintro cause rfl
    exact hblames
  · rintro n rfl
    have hafter : rendered.2.effective n = .error (.notFound n) := by
      rw [hfilled.effective]
      exact hblames
    obtain ⟨hcached, ⟨hget, -⟩ | ⟨source, -, hsource⟩⟩ := effective_eq_error hblames
    · exact ⟨hcached, (effective_eq_error hafter).1, hget⟩
    · exact absurd rfl (Template.ne_notFound_of_compile hsource n)
  · rintro n cause rfl
    obtain ⟨heffective, hne⟩ := hblames
    obtain ⟨-, ⟨-, rfl⟩ | hsource⟩ := effective_eq_error heffective
    · exact absurd rfl (hne n)
    · exact ⟨hsource, hne⟩
  · rintro name source x rfl
    obtain ⟨u, ⟨rfl, rfl⟩ | ⟨m, hm, rfl, hu⟩, hx⟩ := hblames
    · exact .inl ⟨rfl, hx⟩
    · exact .inr ⟨m, hm, rfl, u, hu, hx⟩

/-- The error lies two includes deep, in a template whose source has been removed meanwhile; the one in
front of it stands in an arm that is not taken. -/
theorem nested_syntax_error_blamed :
    let e := (ofSettings {} 3).after [.set "inner" "${1 +}", .ask (.compile "inner"),
      .remove "inner", .set "outer" "${if false}${)}${endif}${include inner}"]
    let t : Template := ⟨none, [.embed "outer" none]⟩
    let x : Expr.SyntaxError := ⟨⟨5, 5⟩, none, Expr.State.start.expected⟩
    (e.renderTemplate t (.object [])).1 =
        .error (.error (.render (.expression (some "inner") "1 +" x))) ∧
      ∃ u, e.effective "inner" = .ok u ∧ u.Misspells "1 +" x := by
  intro e t x
  have h : (e.renderTemplate t (.object [])).1 =
      .error (.error (.render (.expression (some "inner") "1 +" x))) := by decide +kernel
  obtain ⟨-, -, -, hblames⟩ := renderTemplate_blames {} 3 _ t (.object []) _ h
  obtain ⟨hname, -⟩ | ⟨m, -, hm, hu⟩ := hblames _ _ _ rfl
  · cases hname
  · cases hm
    exact ⟨h, hu⟩

end Engine

end Stencil
