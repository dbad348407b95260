import Stencil.Proofs.Engine.Inlining
import Stencil.Proofs.Engine.Pages
import Stencil.Proofs.Render.Invariants
set_option autoImplicit false

/-!
# The limit on includes

A render is run once more, and notes what it comes to. Under a limit no template is begun any
deeper, and the levels of includes suffice for all that are begun. Main statements:
`World.kept_tracedAt`, the invariant of a trace, and `Engine.include_limit`.
-/

namespace Stencil

/-- What a render comes to. It asks for an include at the depth of the template that has it, when
the context of the include has been evaluated. -/
inductive Visit where
  | ask (depth : Nat) (path : String)
  | lookup (path : String)
  | enter (depth : Nat) (name : Option String)
  deriving DecidableEq

def Visit.lookups (visits : List Visit) : List String :=
  visits.filterMap fun
    | .lookup path => some path
    | _ => none

def Run.noting {σ α : Type} (v : Visit) (m : Run σ α) : Run (σ × List Visit) α :=
  fun (s, visits) =>
    let (result, s) := m.exec s
    (result, (s, visits ++ [v]))

namespace Host

variable {σ : Type}

/-- An include of a template at this depth, with so many further levels to go. -/
def tracedAt (h : Host σ) (levels depth : Nat) (path : String) (context : Value) :
    Run (σ × List Visit) String := do
  Run.noting (.ask depth path) (pure ())
  match h.settings.exceeded? (depth + 1) with
  | some limit => Run.fail (.embed (.depthExceeded path limit))
  | none =>
    match levels with
    | 0 => throw .exhausted
    | levels + 1 => do
      let t ← Run.noting (.lookup path) (h.load path)
      Run.noting (.enter (depth + 1) t.name) (pure ())
      t.renderWith h.setting (h.tracedAt levels (depth + 1)) context

def traced (h : Host σ) (levels : Nat) (t : Template) (context : Value) :
    Run (σ × List Visit) String := do
  Run.noting (.enter 0 t.name) (pure ())
  t.renderWith h.setting (h.tracedAt levels 0) context

end Host

namespace Simulation

variable {σ α : Type}

def noted : Simulation σ (σ × List Visit) := exact fun s p => p.1 = s

theorem follows_noting (v : Visit) (m : Run σ α) : noted.Follows m (Run.noting v m) := by
  rintro s ⟨s, visits⟩ rfl
  exact answers_exact.2 ⟨rfl, rfl⟩

theorem follows_noted (v : Visit) {m : Run σ α} {n : Run (σ × List Visit) α}
    (h : noted.Follows m n) : noted.Follows m (Run.noting v (pure ()) >>= fun _ => n) :=
  (follows_noting v (pure ())).bind fun _ => h

theorem noted_renderWith {st : Setting} {f : String → Value → Run σ String}
    {g : String → Value → Run (σ × List Visit) String}
    (h : ∀ path context, noted.Follows (f path context) (g path context)) (t : Template)
    (context : Value) : noted.Follows (t.renderWith st f context) (t.renderWith st g context) := by
  have hrenderers : noted.Renderers ⟨t.name, st, f⟩ ⟨t.name, st, g⟩ :=
    ⟨fun _ _ => follows_ofEval _, h⟩
  exact follows_renderWith hrenderers context

theorem follows_tracedAt (h : Host σ) (levels depth : Nat) (path : String) (context : Value) :
    noted.Follows (h.embedAt levels (depth + 1) path context)
      (h.tracedAt levels depth path context) := by
  induction levels generalizing depth path context with
  | zero =>
    rw [Host.embedAt, Host.tracedAt]
    refine follows_noted _ ?_
    cases h.settings.exceeded? (depth + 1) with
    | some limit => exact follows_fail _
    | none => exact follows_throw _
  | succ levels ih =>
    rw [Host.embedAt, Host.tracedAt]
    refine follows_noted _ ?_
    cases h.settings.exceeded? (depth + 1) with
    | some limit => exact follows_fail _
    | none =>
      refine (follows_noting _ (h.load path)).bind fun t => follows_noted _ ?_
      exact noted_renderWith (ih (depth + 1)) t context

theorem follows_traced (h : Host σ) (levels : Nat) (t : Template) (context : Value) :
    noted.Follows (h.render levels t context) (h.traced levels t context) :=
  follows_noted _ (noted_renderWith (follows_tracedAt h levels 0) t context)

end Simulation

namespace Host

variable {σ : Type} (h : Host σ)

/-- How many levels there are makes no difference once the limit is among them. -/
theorem embedAt_levels {limit : Nat} (hl : h.settings.maxIncludeDepth = some limit)
    {levels levels' depth : Nat} (hlevels : limit < levels + depth)
    (hlevels' : limit < levels' + depth) : h.embedAt levels depth = h.embedAt levels' depth := by
  induction levels generalizing levels' depth with
  | zero =>
    have hx : h.settings.exceeded? depth = some limit := by
      rw [Settings.exceeded?_eq hl, if_pos (by omega)]
    funext path context
    rw [h.embedAt_exceeded hx, h.embedAt_exceeded hx]
  | succ levels ih =>
    by_cases hd : limit < depth
    · have hx : h.settings.exceeded? depth = some limit := by
        rw [Settings.exceeded?_eq hl, if_pos hd]
      funext path context
      rw [h.embedAt_exceeded hx, h.embedAt_exceeded hx]
    · have hx : h.settings.exceeded? depth = none := by
        rw [Settings.exceeded?_eq hl, if_neg hd]
      obtain ⟨levels', rfl⟩ : ∃ n, levels' = n + 1 := ⟨levels' - 1, by omega⟩
      have hrest : h.embedAt levels (depth + 1) = h.embedAt levels' (depth + 1) :=
        ih (by omega) (by omega)
      funext path context
      simp only [embedAt, hx, hrest]

theorem render_levels {limit : Nat} (hl : h.settings.maxIncludeDepth = some limit)
    {levels levels' : Nat} (hlevels : limit ≤ levels) (hlevels' : limit ≤ levels') :
    h.render levels = h.render levels' := by
  funext t context
  have hembed : h.embedAt levels 1 = h.embedAt levels' 1 :=
    h.embedAt_levels hl (by omega) (by omega)
  simp only [render, hembed]

end Host

/-- How a render under a limit, which began with this store, has gone so far. Once it has asked for
an include at the limit it comes to nothing else. -/
structure Visited (start : Store) (r : Registry) (limit : Nat) (h : Option Halt)
    (p : Store × List Visit) : Prop where
  store : p.1 = start.loadAll r (Visit.lookups p.2)
  depths : ∀ depth name, .enter depth name ∈ p.2 → depth ≤ limit
  finished : h ≠ some .exhausted
  exceeded : ∀ path l, h = some (.error (.embed (.depthExceeded path l))) ↔
    l = limit ∧ .ask limit path ∈ p.2
  last : ∀ path, .ask limit path ∈ p.2 → p.2.getLast? = some (.ask limit path)

/-- What a render under a limit goes on after. -/
def Visit.Passable (limit : Nat) : Visit → Prop
  | .ask depth _ => depth < limit
  | .lookup _ => True
  | .enter depth _ => depth ≤ limit

theorem Visit.lookups_append (visits visits' : List Visit) :
    lookups (visits ++ visits') = lookups visits ++ lookups visits' :=
  List.filterMap_append

theorem IncludeError.ofCompile_ne_depthExceeded (path path' : String) (e : CompileError)
    (limit : Nat) : ofCompile path e ≠ .depthExceeded path' limit := by
  cases e <;> simp [ofCompile]

namespace Visited

variable {start : Store} {r : Registry} {limit : Nat} {p : Store × List Visit}

theorem opening : Visited start r limit none (start, []) where
  store := rfl
  depths := by simp
  finished := by simp
  exceeded := by simp
  last := by simp

theorem ask_not_mem (h : Visited start r limit none p) (path : String) :
    .ask limit path ∉ p.2 := by
  intro hmem
  cases (h.exceeded path limit).2 ⟨rfl, hmem⟩

theorem halt (h : Visited start r limit none p) {k : Halt} (hfinished : k ≠ .exhausted)
    (hexceeded : ∀ path l, k ≠ .error (.embed (.depthExceeded path l))) :
    Visited start r limit (some k) p where
  store := h.store
  depths := h.depths
  finished hk := hfinished (Option.some.inj hk)
  exceeded path l :=
    ⟨fun hk => absurd (Option.some.inj hk) (hexceeded path l),
      fun hmem => absurd hmem.2 (h.ask_not_mem path)⟩
  last := h.last

theorem visit (h : Visited start r limit none p) {v : Visit} (hv : v.Passable limit) {s : Store}
    (hs : s = p.1.loadAll r (Visit.lookups [v])) :
    Visited start r limit none (s, p.2 ++ [v]) := by
  have hask (path : String) : .ask limit path ∉ p.2 ++ [v] := by
    intro hmem
    obtain hmem | hmem := List.mem_append.1 hmem
    · exact h.ask_not_mem path hmem
    · rw [← List.mem_singleton.1 hmem] at hv
      exact Nat.lt_irrefl limit hv
  refine ⟨?_, fun depth name hmem => ?_, by simp, fun path l => ?_, fun path hmem => ?_⟩
  · rw [hs, h.store, Visit.lookups_append]
    simp [Store.loadAll]
  · obtain hmem | hmem := List.mem_append.1 hmem
    · exact h.depths depth name hmem
    · rwa [← List.mem_singleton.1 hmem] at hv
  · exact ⟨by simp, fun hmem => absurd hmem.2 (hask path)⟩
  · exact absurd hmem (hask path)

theorem exceed (h : Visited start r limit none p) (path : String) :
    Visited start r limit (some (.error (.embed (.depthExceeded path limit))))
      (p.1, p.2 ++ [.ask limit path]) where
  store := by
    rw [h.store, Visit.lookups_append]
    simp [Visit.lookups]
  depths depth name hmem := h.depths depth name (by simpa using hmem)
  finished := by simp
  exceeded path' l := by
    have hmem := h.ask_not_mem path'
    simp only [List.mem_append, hmem, false_or, List.mem_singleton]
    grind
  last path' hmem := by
    have := h.ask_not_mem path'
    obtain rfl : path' = path := by simpa [this] using hmem
    simp

end Visited

namespace World

variable (w : World) (start : Store) (limit : Nat)

def visited : Invariant (Store × List Visit) where
  holds := Visited start w.registry limit
  render _ _ h := h.halt (by simp) (by simp)
  notIterable _ _ h := h.halt (by simp) (by simp)

variable {w start limit}

theorem kept_noting {v : Visit} (hv : v.Passable limit) (hlookups : Visit.lookups [v] = []) :
    (w.visited start limit).Kept (Run.noting v (pure ())) := by
  intro p hp
  exact Visited.visit hp hv (by rw [hlookups]; rfl)

theorem kept_lookup (path : String) :
    (w.visited start limit).Kept (Run.noting (.lookup path) (w.host.load path)) := by
  rintro ⟨s, visits⟩ hp
  have hvisit : Visited start w.registry limit none
      ((s.load w.registry path).2, visits ++ [.lookup path]) :=
    Visited.visit (v := .lookup path) hp trivial rfl
  have hexec : (Run.noting (.lookup path) (w.host.load path)).exec (s, visits) =
      (((w.loadIncluded path).exec s).1,
        ((w.loadIncluded path).exec s).2, visits ++ [.lookup path]) := rfl
  rw [hexec, w.exec_loadIncluded]
  cases s.effective w.registry path with
  | ok t => exact hvisit
  | error e =>
    refine hvisit.halt (by simp) fun path' l hk => ?_
    injection hk with hk
    injection hk with hk
    exact IncludeError.ofCompile_ne_depthExceeded path path' e l hk

theorem kept_tracedAt_limit (hl : w.settings.maxIncludeDepth = some limit) (levels : Nat)
    (path : String) (context : Value) :
    (w.visited start limit).Kept (w.host.tracedAt levels limit path context) := by
  have hx : w.host.settings.exceeded? (limit + 1) = some limit :=
    (Settings.exceeded?_eq hl (limit + 1)).trans (if_pos (Nat.lt_succ_self limit))
  have hfail : w.host.tracedAt levels limit path context =
      Run.noting (.ask limit path) (pure ()) >>= fun _ =>
        Run.fail (.embed (.depthExceeded path limit)) := by
    cases levels <;> simp only [Host.tracedAt, hx]
  rw [hfail]
  intro p hp
  exact Visited.exceed hp path

/-- By induction on the levels. Those that are left reach from the depth to the limit, so an include
below the limit has another level. -/
theorem kept_tracedAt (hl : w.settings.maxIncludeDepth = some limit) {levels depth : Nat}
    (hd : depth ≤ limit) (hlevels : limit ≤ levels + depth) (path : String) (context : Value) :
    (w.visited start limit).Kept (w.host.tracedAt levels depth path context) := by
  induction levels generalizing depth path context with
  | zero =>
    obtain rfl : depth = limit := by omega
    exact kept_tracedAt_limit hl 0 path context
  | succ levels ih =>
    by_cases he : depth = limit
    · subst he
      exact kept_tracedAt_limit hl (levels + 1) path context
    · have hx : w.host.settings.exceeded? (depth + 1) = none :=
        (Settings.exceeded?_eq hl (depth + 1)).trans (if_neg (by omega))
      rw [Host.tracedAt]
      simp only [hx]
      have hask : (Visit.ask depth path).Passable limit := Nat.lt_of_le_of_ne hd he
      refine (kept_noting hask rfl).bind fun _ => (kept_lookup path).bind fun t => ?_
      have henter : (Visit.enter (depth + 1) t.name).Passable limit := hask
      have hinner := ih hask (by omega)
      exact (kept_noting henter rfl).bind fun _ => Invariant.kept_renderWith hinner t context

theorem kept_traced (hl : w.settings.maxIncludeDepth = some limit) (t : Template)
    (context : Value) : (w.visited start limit).Kept (w.host.traced w.levels t context) := by
  have hlevels := w.levels_eq hl
  have henter : (Visit.enter 0 t.name).Passable limit := Nat.zero_le limit
  refine (kept_noting henter rfl).bind fun _ => Invariant.kept_renderWith ?_ t context
  exact kept_tracedAt hl (Nat.zero_le limit) (Nat.le_of_eq hlevels.symm)

end World

def Page.visits : Page → List Visit
  | .named name => [.lookup name]
  | _ => []

namespace Engine

/-- The same render with what it comes to. -/
def trace (e : Engine) (page : Page) (context : Value) :
    (Except Halt String × Engine) × List Visit :=
  match e.openPage page with
  | (.ok t, e) =>
    let (result, store, visits) :=
      (e.world.host.traced e.world.levels t context).exec (e.store, page.visits)
    ((result, { e with store := store }), visits)
  | (.error cause, e) => ((.error (.error (.compile cause)), e), page.visits)

theorem trace_fst (e : Engine) (page : Page) (context : Value) :
    (e.trace page context).1 = e.renderPage page context := by
  rw [renderPage_eq, trace]
  rcases e.openPage page with ⟨cause | t, e'⟩
  · rfl
  · have hfollows := Simulation.follows_traced e'.world.host e'.world.levels t context e'.store
      (e'.store, page.visits) rfl
    obtain ⟨houtcome, hstore⟩ := Simulation.answers_exact.1 hfollows
    simp only [renderTemplate, exec, World.render, houtcome, ← hstore]

theorem visited_openPage (e : Engine) (page : Page) (limit : Nat) :
    Visited e.store e.registry limit none ((e.openPage page).2.store, page.visits) := by
  cases page with
  | compiled t => exact .opening
  | named name => exact Visited.opening.visit (v := .lookup name) trivial rfl
  | source text => exact .opening

theorem visited_trace (e : Engine) (page : Page) (context : Value) {limit : Nat}
    (hl : e.world.settings.maxIncludeDepth = some limit) :
    Visited e.store e.registry limit (Run.halt? (e.trace page context).1.1)
      ((e.trace page context).1.2.store, (e.trace page context).2) := by
  have hopen := e.visited_openPage page limit
  have hworld := e.openPage_world page
  rw [trace]
  rcases ho : e.openPage page with ⟨cause | t, ⟨w, s⟩⟩
  · rw [ho] at hopen
    exact hopen.halt (by simp) (by simp)
  · rw [ho] at hopen hworld
    obtain rfl : w = e.world := hworld
    exact World.kept_traced hl t context (s, page.visits) hopen

/-- Under a limit on includes every render ends, and levels of includes beyond the limit would make
no difference. No template is begun deeper than at the limit. The error that names the limit is
raised just where a template at the limit asks for an include. The render comes to nothing else
then, and what it adds to the store is what it looks up. -/
theorem include_limit (e : Engine) (page : Page) (context : Value) (limit : Nat)
    (h : e.world.settings.maxIncludeDepth = some limit) :
    let outcome := (e.renderPage page context).1
    let visits := (e.trace page context).2
    (e.trace page context).1 = e.renderPage page context ∧
      outcome ≠ .error .exhausted ∧
      (∀ levels, limit ≤ levels → e.world.host.render levels = e.world.render) ∧
      (∀ depth name, .enter depth name ∈ visits → depth ≤ limit) ∧
      (∀ path l, outcome = .error (.error (.embed (.depthExceeded path l))) ↔
        l = limit ∧ .ask limit path ∈ visits) ∧
      (∀ path, .ask limit path ∈ visits → visits.getLast? = some (.ask limit path)) ∧
      (e.renderPage page context).2.store = e.store.loadAll e.registry (Visit.lookups visits) := by
  intro outcome visits
  have htrace := e.trace_fst page context
  have hvisited := e.visited_trace page context h
  rw [htrace] at hvisited
  have hlevels := e.world.levels_eq h
  have hhalt (k : Halt) : Run.halt? outcome = some k ↔ outcome = .error k := by
    cases outcome <;> simp [Run.halt?]
  refine ⟨htrace, ?_, fun levels hl => ?_, hvisited.depths, fun path l => ?_, hvisited.last,
    hvisited.store⟩
  · exact fun hk => hvisited.finished ((hhalt _).2 hk)
  · exact e.world.host.render_levels h hl (Nat.le_of_eq hlevels.symm)
  · exact (hhalt _).symm.trans (hvisited.exceeded path l)

theorem nested_list_exceeds_limit :
    let items : Expression := ⟨"items", 0, .ok (.ident "items")⟩
    let inner : Expression := ⟨"", 0, .ok (.object [("items", .ident "items")])⟩
    let list : Template :=
      ⟨some "list", [.loop "i" "x" items [.literal "- ", .embed "list" (some inner)]]⟩
    let e : Engine := ⟨⟨⟨[]⟩, [], ⟨some 1, .strict⟩, 0⟩, ⟨[("list", ⟨list, 0⟩)], 1⟩⟩
    let context : Value := .object [("items", .array [.string "a", .string "b"])]
    (e.trace (.named "list") context).2 =
        [.lookup "list", .enter 0 (some "list"), .ask 0 "list", .lookup "list",
          .enter 1 (some "list"), .ask 1 "list"] ∧
      (e.renderPage (.named "list") context).1 =
        .error (.error (.embed (.depthExceeded "list" 1))) := by
  intro items inner list e context
  have hvisits : (e.trace (.named "list") context).2 =
      [.lookup "list", .enter 0 (some "list"), .ask 0 "list", .lookup "list",
        .enter 1 (some "list"), .ask 1 "list"] := rfl
  obtain ⟨-, -, -, -, hexceeded, -, -⟩ := include_limit e (.named "list") context 1 rfl
  exact ⟨hvisits, (hexceeded "list" 1).2 ⟨rfl, by simp [hvisits]⟩⟩

end Engine

end Stencil
