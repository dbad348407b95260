import Mathlib.Data.List.Induction
import Stencil.Proofs.Engine.Catalogue
import Stencil.Proofs.Render.FreeNames
set_option autoImplicit false

/-!
# Includes and inlining

An include that passes on all names that its template uses does what the template's instructions do in
its place. They run in another scope, one level deeper and with another store; none of the three can be
told. Main statements: `Simulation.follows_embedAt_succ`, a level more makes no difference unless the
levels run out, and `Engine.embed_eq_inlined`.
-/

namespace Stencil

theorem Entries.get?_ofList_map (f : String → Value) {names : List String} {n : String}
    (h : n ∈ names) :
    Entries.get? n (Entries.ofList (names.map fun n => (n, f n))) = some (f n) := by
  induction names using List.reverseRecOn with
  | nil => simp at h
  | append_singleton names m ih =>
    simp only [Entries.ofList, List.map_append, List.map_cons, List.map_nil, List.foldl_append,
      List.foldl_cons, List.foldl_nil, Entries.get?_insert] at ih ⊢
    by_cases hn : n = m
    · simp [hn]
    · rw [if_neg hn]
      exact ih (by simpa [hn] using h)

/-- The object of the values of these names, each under its name. -/
def Expr.shorthands (names : List String) : Expr := .object (names.map fun n => (n, .ident n))

namespace Setting

def Gives (st : Setting) (scope : Scope) (names : List String) : Prop :=
  st.undefined = .lenient ∨ ∀ n ∈ names, (scope.lookup n).isSome

variable {st : Setting} {scope : Scope}

theorem Gives.lookup {names : List String} (h : st.Gives scope names) {n : String}
    (hn : n ∈ names) : st.lookup scope n = .ok ((scope.lookup n).getD .null) := by
  unfold Setting.lookup
  cases hs : scope.lookup n with
  | some v => rfl
  | none =>
    obtain hl | hb := h
    · simp [hl]
    · simpa [hs] using hb n hn

end Setting

namespace Expr

variable {st : Setting} {scope : Scope}

theorem evalEntries_idents {names : List String} (h : st.Gives scope names) {ns : List String}
    (hns : ns ⊆ names) :
    evalEntries st scope (ns.map fun n => (n, .ident n)) =
      .ok (ns.map fun n => (n, (scope.lookup n).getD .null)) := by
  induction ns with
  | nil => rfl
  | cons n ns ih =>
    have hn := h.lookup (hns List.mem_cons_self)
    have hrest := ih fun m hm => hns (List.mem_cons_of_mem n hm)
    simp [evalEntries, eval, hn, hrest, bind, Except.bind, pure, Except.pure]

/-- The fields that an object of shorthands takes from a scope. -/
def forwarded (scope : Scope) (names : List String) : List (String × Value) :=
  Entries.ofList (names.map fun n => (n, (scope.lookup n).getD .null))

theorem eval_shorthands {names : List String} (h : st.Gives scope names) :
    (shorthands names).eval st scope = .ok (.object (forwarded scope names)) := by
  simp [shorthands, eval, evalEntries_idents h (List.Subset.refl names), forwarded, bind,
    Except.bind, pure, Except.pure]

theorem agrees_forwarded {names : List String} (h : st.Gives scope names) :
    st.Agrees (Scope.ofContext (forwarded scope names)) scope names := by
  intro n hn
  rw [h.lookup hn, Setting.lookup, Scope.lookup_ofContext, forwarded,
    Entries.get?_ofList_map _ hn]

end Expr

def Halt.withoutTemplate : Halt → Halt
  | .error (.render (.expression _ source e)) => .error (.render (.expression none source e))
  | h => h

namespace Simulation

variable {σ τ : Type} {S : Simulation σ τ}

/-- What an include one level deeper does, with as many levels to go, is followed by what it does
here. The levels run out there first, and that is excused. -/
theorem follows_embedAt_succ {h : Host σ} {k : Host τ} (hs : S.Hosts h k)
    (hdeep : ∀ path limit, S.excused (.error (.embed (.depthExceeded path limit))))
    (hroom : h.settings.maxIncludeDepth = none → S.excused .exhausted) (levels depth : Nat)
    (hl : ∀ limit ∈ h.settings.maxIncludeDepth, limit ≤ levels + depth) (path : String)
    (context : Value) :
    S.Follows (h.embedAt levels (depth + 1) path context)
      (k.embedAt (levels + 1) depth path context) := by
  induction levels generalizing depth path context with
  | zero =>
    cases hx : h.settings.exceeded? (depth + 1) with
    | some limit =>
      simp only [Host.embedAt, hx]
      exact follows_of_excused (hdeep path limit) _
    | none =>
      have hnone : h.settings.maxIncludeDepth = none := by
        have hle := (h.settings.exceeded?_eq_none_iff (depth + 1)).1 hx
        cases hm : h.settings.maxIncludeDepth with
        | none => rfl
        | some limit =>
          have := hl limit hm
          have := hle limit hm
          omega
      simp only [Host.embedAt, hx]
      exact follows_of_excused (hroom hnone) _
  | succ levels ih =>
    cases hx : h.settings.exceeded? (depth + 1) with
    | some limit =>
      simp only [Host.embedAt, hx]
      exact follows_of_excused (hdeep path limit) _
    | none =>
      have hk : k.settings.exceeded? depth = none := by
        rw [Settings.exceeded?_eq_none_iff, ← hs.limit]
        intro limit hm
        have := (h.settings.exceeded?_eq_none_iff (depth + 1)).1 hx limit hm
        omega
      rw [Host.embedAt, Host.embedAt]
      simp only [hx, hk]
      refine (hs.load path).bind fun t => follows_renderWith (hs.renderers ?_ t.name) context
      exact ih (depth + 1) fun limit hm => by have := hl limit hm; omega

end Simulation

theorem Host.embedAt_exceeded {σ : Type} (h : Host σ) {depth limit : Nat}
    (hx : h.settings.exceeded? depth = some limit) (levels : Nat) (path : String)
    (context : Value) :
    h.embedAt levels depth path context = Run.fail (.embed (.depthExceeded path limit)) := by
  cases levels <;> simp only [embedAt, hx]

def World.renderer (w : World) (name : Option String) (depth : Nat) : Renderer Store :=
  ⟨name, w.host.setting, w.host.embedAt (w.levels - depth) (depth + 1)⟩

namespace World

variable (w : World)

theorem levels_eq {limit : Nat} (hl : w.settings.maxIncludeDepth = some limit) :
    w.levels = limit := by
  simp [levels, hl]

theorem exec_loadIncluded (path : String) (s : Store) :
    (w.loadIncluded path).exec s =
      ((s.effective w.registry path).mapError fun e => .error (.embed (.ofCompile path e)),
        (s.load w.registry path).2) := by
  simp only [Run.exec, loadIncluded, ← s.load_template w.registry path]
  rcases s.load w.registry path with ⟨e | c, s'⟩ <;> rfl

theorem renderer_exceeded {depth limit : Nat} (hx : w.settings.exceeded? (depth + 1) = some limit)
    (name : Option String) (path : String) (context : Value) :
    (w.renderer name depth).embed path context = Run.fail (.embed (.depthExceeded path limit)) :=
  w.host.embedAt_exceeded hx _ path context

theorem renderer_exhausted {depth : Nat} (hd : w.levels ≤ depth)
    (hx : w.settings.exceeded? (depth + 1) = none) (name : Option String) (path : String)
    (context : Value) : (w.renderer name depth).embed path context = throw .exhausted := by
  have hx : w.host.settings.exceeded? (depth + 1) = none := hx
  simp only [renderer, Nat.sub_eq_zero_of_le hd]
  rw [Host.embedAt]
  simp only [hx]

theorem renderer_embed {depth : Nat} (hd : depth < w.levels)
    (hx : w.settings.exceeded? (depth + 1) = none) (name : Option String) (path : String)
    (fields : List (String × Value)) :
    (w.renderer name depth).embed path (.object fields) =
      w.loadIncluded path >>= fun t =>
        (w.renderer t.name (depth + 1)).runAll (Scope.ofContext fields) t.instructions := by
  have hlevels : w.levels - depth = w.levels - (depth + 1) + 1 := by omega
  have hx : w.host.settings.exceeded? (depth + 1) = none := hx
  simp only [renderer, hlevels]
  rw [Host.embedAt]
  simp only [hx]
  rfl

end World

namespace Engine

/-- Runs are compared on stores in which each name stands for the same. Halts may differ in the name
of the template; nothing is asked if the levels run out. -/
def inlining (w : World) : Simulation Store Store where
  states s t := s.effective w.registry = t.effective w.registry
  excused h := (∃ path limit, h = .error (.embed (.depthExceeded path limit))) ∨
    (w.settings.maxIncludeDepth = none ∧ h = .exhausted)
  halts h k := h.withoutTemplate = k.withoutTemplate
  halts_self _ := rfl

theorem hosts_inlining (w : World) : (inlining w).Hosts w.host w.host where
  eval _ _ _ := Simulation.follows_ofEval _
  limit := rfl
  load path := by
    intro s t (h : s.effective w.registry = t.effective w.registry)
    have hstates : (inlining w).states (s.load w.registry path).2 (t.load w.registry path).2 :=
      (s.effective_load w.registry path).trans (h.trans (t.effective_load w.registry path).symm)
    simp only [World.host, World.exec_loadIncluded, h]
    cases t.effective w.registry path with
    | error e => exact .inr ⟨rfl, hstates⟩
    | ok t => exact ⟨rfl, hstates⟩

theorem renderers_inlining (w : World) (name name' : Option String) {depth : Nat}
    (hd : depth < w.levels) :
    (inlining w).Renderers (w.renderer name (depth + 1)) (w.renderer name' depth) where
  eval scope e := by
    simp only [Renderer.eval, Expression.eval, Expression.tree, World.renderer]
    cases e.parsed with
    | error x => exact fun s t hs => .inr ⟨rfl, hs⟩
    | ok x => exact Simulation.follows_ofEval _
  embed path context := by
    have hlevels : w.levels - depth = w.levels - (depth + 1) + 1 := by omega
    simp only [World.renderer, hlevels]
    refine Simulation.follows_embedAt_succ (hosts_inlining w) (fun path limit => .inl ⟨path, limit, rfl⟩)
      (fun h => .inr ⟨h, rfl⟩) _ _ (fun limit hm => ?_) path context
    have := w.levels_eq hm
    omega

theorem mapError_eq_of_answers {w : World} {x y : Except Halt String × Store}
    (h : (inlining w).Answers x y) (hx : ∀ k, x.1 = .error k → ¬ (inlining w).excused k) :
    x.1.mapError Halt.withoutTemplate = y.1.mapError Halt.withoutTemplate :=
  h.mapError_eq (fun _ _ => id) hx

/-- At any point of a render, an include that passes on all names that its template uses ends as the
template's instructions do in its place: with the same text, or with the same error, in which only the
name of the template may differ. It must not run out of levels, with the error that says so or, where
the settings set no limit, for want of room. -/
theorem embed_eq_inlined (e : Engine) (name : Option String) (depth : Nat) (scope : Scope)
    (path : String) (t : Template) (names : List String) (context : Expression)
    (ht : e.effective path = .ok t) (hfree : t.freeNames ⊆ names)
    (hcontext : context.parsed = .ok (Expr.shorthands names))
    (hgives : e.world.host.setting.Gives scope names) :
    let r := e.world.renderer name depth
    let included := (e.exec (r.run scope (.embed path (some context)))).1
    let inlined := (e.exec (r.runAll scope t.instructions)).1
    (∀ path limit, included ≠ .error (.error (.embed (.depthExceeded path limit)))) →
    (e.world.settings.maxIncludeDepth = none → included ≠ .error .exhausted) →
    included.mapError Halt.withoutTemplate = inlined.mapError Halt.withoutTemplate := by
  intro r included inlined hdeep hroom
  have heval : context.eval r.name r.setting scope = .ok (.object (Expr.forwarded scope names)) := by
    simp only [Expression.eval, Expression.tree, hcontext]
    exact Expr.eval_shorthands hgives
  have hrun : r.run scope (.embed path (some context)) =
      r.embed path (.object (Expr.forwarded scope names)) := by
    simp only [Renderer.run, Renderer.eval, heval]
    rfl
  have hx : e.world.settings.exceeded? (depth + 1) = none := by
    cases hx : e.world.settings.exceeded? (depth + 1) with
    | none => rfl
    | some limit =>
      refine absurd ?_ (hdeep path limit)
      simp only [included, hrun, exec, r, e.world.renderer_exceeded hx]
      rfl
  have hd : depth < e.world.levels := by
    cases hm : e.world.settings.maxIncludeDepth with
    | some limit =>
      have := (e.world.settings.exceeded?_eq_none_iff (depth + 1)).1 hx limit hm
      simp only [World.levels, hm, Option.getD_some]
      omega
    | none =>
      refine Nat.lt_of_not_le fun hle => absurd ?_ (hroom hm)
      simp only [included, hrun, exec, r, e.world.renderer_exhausted hle hx]
      rfl
  have hscope : (e.world.renderer t.name (depth + 1)).runAll
      (Scope.ofContext (Expr.forwarded scope names)) t.instructions =
        (e.world.renderer t.name (depth + 1)).runAll scope t.instructions :=
    Renderer.runAll_agrees t.instructions ((Expr.agrees_forwarded hgives).mono hfree)
  have hstates : (inlining e.world).states (e.store.load e.registry path).2 e.store :=
    e.store.effective_load e.registry path
  have ht : e.store.effective e.world.registry path = .ok t := ht
  have hincluded : included = (((e.world.renderer t.name (depth + 1)).runAll scope
      t.instructions).exec (e.store.load e.registry path).2).1 := by
    simp only [included, hrun, exec, r, e.world.renderer_embed hd hx, Run.exec_bind,
      World.exec_loadIncluded, ht, Except.mapError, hscope]
    rfl
  have hfollows := Simulation.follows_runAll (renderers_inlining e.world t.name name hd) scope
    t.instructions (e.store.load e.registry path).2 e.store hstates
  rw [hincluded]
  refine mapError_eq_of_answers hfollows fun k hk => ?_
  rw [← hincluded] at hk
  rintro (⟨path, limit, rfl⟩ | ⟨hm, rfl⟩)
  · exact hdeep path limit hk
  · exact hroom hm hk

/-- Within a loop, `row` prints the loop's value and the title of the page for each of the cells, and
includes a further template. -/
theorem row_inlined :
    let title : Expression := ⟨"title", 0, .ok (.ident "title")⟩
    let cells : Expression := ⟨"cells", 0, .ok (.ident "cells")⟩
    let row : Template :=
      ⟨some "row", [.loop "i" "c" cells [.print ⟨"c", 0, .ok (.ident "c")⟩, .print title],
        .embed "end" none]⟩
    let e : Engine :=
      ⟨⟨⟨[("row", "newer")]⟩, [], ⟨some 2, .strict⟩, 0⟩,
        ⟨[("row", ⟨row, 0⟩), ("end", ⟨⟨some "end", [.literal "."]⟩, 1⟩)], 2⟩⟩
    let scope := (Scope.ofContext [("title", .string "T"), ("c", .null)]).push
      ⟨"k", .null, "cells", .array [.string "a", .string "b"]⟩
    let names := ["title", "cells"]
    let context : Expression := ⟨"", 0, .ok (Expr.shorthands names)⟩
    let r := e.world.renderer none 0
    e.effective "row" = .ok row ∧ row.freeNames ⊆ names ∧
      e.world.host.setting.Gives scope names ∧
      (e.exec (r.run scope (.embed "row" (some context)))).1 = .ok "aTbT." ∧
      (e.exec (r.run scope (.embed "row" (some context)))).1.mapError Halt.withoutTemplate =
        (e.exec (r.runAll scope row.instructions)).1.mapError Halt.withoutTemplate := by
  intro title cells row e scope names context r
  have ht : e.effective "row" = .ok row := rfl
  have hfree : row.freeNames ⊆ names := by decide
  have hgives : e.world.host.setting.Gives scope names :=
    .inr (by simp [names, scope, Scope.lookup_push, LoopFrame.get?, Scope.lookup_ofContext,
      Entries.get?])
  have hincluded : (e.exec (r.run scope (.embed "row" (some context)))).1 = .ok "aTbT." := rfl
  refine ⟨ht, hfree, hgives, hincluded, ?_⟩
  exact embed_eq_inlined e none 0 scope "row" row names context ht hfree rfl hgives
    (fun path limit => by rw [hincluded]; simp) (fun h => by rw [hincluded]; simp)

end Engine

end Stencil
