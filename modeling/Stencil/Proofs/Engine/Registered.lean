import Stencil.Proofs.Engine.Blame
set_option autoImplicit false

namespace Stencil

def Halt.named (name : String) : Halt → Halt
  | .error (.render (.expression none source x)) =>
    .error (.render (.expression (some name) source x))
  | h => h

theorem Template.compile_named (name : Option String) (source : String) :
    compile name source = (compile none source).map fun t => ⟨name, t.instructions⟩ := by
  unfold compile
  cases Markup.pieces source with
  | error cause => rfl
  | ok ps =>
    cases hassemble : assemble ps with
    | error cause => simp [bind, Except.bind, Except.map, hassemble]
    | ok is => simp [bind, Except.bind, Except.map, pure, Except.pure, hassemble]

namespace Simulation

/-- A halt stands for those that are the same once they have the name. -/
abbrev naming (name : String) : Simulation Unit Unit :=
  ⟨fun _ _ => True, fun _ => False, fun h k => h.named name = k.named name, fun _ => rfl⟩

theorem follows_naming {α : Type} (name : String) (m : Run Unit α) :
    (naming name).Follows m m := by
  rintro ⟨⟩ ⟨⟩ -
  rcases m.exec () with ⟨h | a, ⟨⟩⟩
  · exact .inr ⟨rfl, trivial⟩
  · exact ⟨rfl, trivial⟩

theorem renderers_naming (name : String) (st : Setting) (embed : String → Value → Run Unit String) :
    (naming name).Renderers ⟨some name, st, embed⟩ ⟨none, st, embed⟩ where
  eval scope e := by
    simp only [Renderer.eval, Expression.eval, Expression.tree]
    cases e.parsed with
    | error x => exact fun _ _ _ => .inr ⟨rfl, trivial⟩
    | ok x => exact follows_naming name _
  embed path context := follows_naming name _

end Simulation

namespace Engine

variable {e : Engine}

theorem mapError_named (he : e.effective.Named) (name other : String) (is : List Instruction)
    (context : Value) :
    (e.outcome context (.ok ⟨some other, is⟩)).mapError (Halt.named name) =
      e.outcome context (.ok ⟨some other, is⟩) := by
  have hrendered : (e.renderTemplate ⟨some other, is⟩ context).1 =
      e.outcome context (.ok ⟨some other, is⟩) := (e.renderTemplate_filled _ context).1
  rcases houtcome : e.outcome context (.ok ⟨some other, is⟩) with (err | _) | text
  · rw [houtcome] at hrendered
    have hblames := renderTemplate_blames_ran he hrendered
    refine congrArg Except.error ?_
    unfold Halt.named
    split
    · next source x herr =>
      cases herr
      obtain ⟨u, ⟨hname, -⟩ | ⟨m, -, hname, -⟩, -⟩ := hblames <;> cases hname
    · rfl
  · rfl
  · rfl

theorem outcome_named (he : e.effective.Named) (name : String) (is : List Instruction)
    (context : Value) :
    e.outcome context (.ok ⟨some name, is⟩) =
      (e.outcome context (.ok ⟨none, is⟩)).mapError (Halt.named name) := by
  rw [← mapError_named he name]
  cases context with
  | object fields =>
    have hfollows := Simulation.follows_runAll
      (Simulation.renderers_naming name e.reference.setting
        (e.reference.embedAt e.world.levels 1)) (Scope.ofContext fields) is () () trivial
    exact Simulation.Answers.mapError_eq hfollows (fun _ _ => id) fun _ _ => id
  | _ => rfl

theorem effective_of_get? {name source : String} (hsource : e.get? name = some source)
    (hkept : ∀ c, e.store.find? name = some c →
      Template.compile (some name) source = .ok c.template) :
    e.effective name = Template.compile (some name) source := by
  unfold effective Store.effective
  cases hfind : e.store.find? name with
  | some c => exact (hkept c hfind).symm
  | none =>
    have hget : e.registry.get? name = some source := hsource
    simp only [Registry.compile, hget]

/-- A render by name ends as that of the source that is registered under it, unless a template from
another source is kept under the name: with the same output, or with the same error, to which the name
is added where it is a syntax error of the source itself. -/
theorem render_eq_renderSource (settings : Settings) (room : Nat) (ops : List Operation)
    (name source : String) (context : Value) :
    let e := (ofSettings settings room).after ops
    e.get? name = some source →
    (∀ c, e.store.find? name = some c → Template.compile (some name) source = .ok c.template) →
    (e.render name context).1 =
        (e.renderSource source context).1.mapError (Halt.named name) ∧
      ∀ text x, (e.renderSource source context).1 =
          .error (.error (.render (.expression none text x))) →
        ∃ t, compileSource source = .ok t ∧ t.Misspells text x := by
  intro e hsource hkept
  have he : e.effective.Named := named_after settings room ops
  have hrender := (e.render_filled name context).1
  have hrenderSource := (e.renderSource_filled source context).1
  rw [effective_of_get? hsource hkept, Template.compile_named] at hrender
  refine ⟨?_, fun text x hx => ?_⟩
  · rw [hrender, hrenderSource, compileSource]
    cases hcompile : Template.compile none source with
    | error cause => rfl
    | ok t =>
      obtain ⟨_, is⟩ := t
      obtain rfl : _ = none := Template.name_of_compile hcompile
      exact outcome_named he name is context
  · cases hcompile : compileSource source with
    | error cause =>
      rw [hrenderSource, hcompile] at hx
      cases hx
    | ok t =>
      have hrendered : (e.renderTemplate t context).1 =
          .error (.error (.render (.expression none text x))) := by
        rw [← hx, renderSource, hcompile]
      obtain ⟨u, ⟨-, rfl⟩ | ⟨m, -, hname, -⟩, hmisspells⟩ := renderTemplate_blames_ran he hrendered
      · exact ⟨u, rfl, hmisspells⟩
      · cases hname

/-- A source that includes itself, kept from the same text as it is registered now. Its own error gets
the name; that of the source within it bears the name already, and the limit is met at the same depth. -/
theorem itself_included_by_name :
    let source := "$\x7bif deep\x7d$\x7b)\x7d$\x7belse\x7d$\x7binclude p \x7bdeep: more, more\x7d\x7d$\x7bendif\x7d"
    let e := (ofSettings ⟨some 1, .strict⟩ 0).after
      [.set "p" source, .ask (.compile "p"), .set "p" "other", .set "p" source]
    let context (deep more : Bool) : Value := .object [("deep", .bool deep), ("more", .bool more)]
    let x : Expr.SyntaxError := ⟨⟨12, 13⟩, some (.symbol .parenClose), Expr.State.start.expected⟩
    let byName deep more := (e.render "p" (context deep more)).1
    let bySource deep more := (e.renderSource source (context deep more)).1
    e.isCached "p" ∧
      (∀ deep more, byName deep more = (bySource deep more).mapError (Halt.named "p")) ∧
      bySource true false = .error (.error (.render (.expression none ")" x))) ∧
      bySource false true = .error (.error (.render (.expression (some "p") ")" x))) ∧
      bySource false false = .error (.error (.embed (.depthExceeded "p" 1))) ∧
      ∃ t, compileSource source = .ok t ∧ t.Misspells ")" x := by
  intro source e context x byName bySource
  have hkept (c : Compiled) (hc : e.store.find? "p" = some c) :
      Template.compile (some "p") source = .ok c.template := by
    -- What is loaded for a name is what the name stood for, and there was nothing in the store then.
    have heffective : e.store.effective ⟨[("p", source)]⟩ "p" = .ok c.template := by
      simp only [Store.effective, hc]
    rwa [show e.store = (Store.empty.load ⟨[("p", source)]⟩ "p").2 from rfl,
      Store.effective_load] at heffective
  have hown : bySource true false = .error (.error (.render (.expression none ")" x))) := by
    decide +kernel
  have hagree (deep more : Bool) :=
    render_eq_renderSource ⟨some 1, .strict⟩ 0 _ "p" source (context deep more) rfl hkept
  exact ⟨by decide +kernel, fun deep more => (hagree deep more).1, hown, by decide +kernel,
    by decide +kernel, (hagree true false).2 ")" x hown⟩

end Engine

end Stencil
