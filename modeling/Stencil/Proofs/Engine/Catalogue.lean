import Stencil.Engine.Basic
import Stencil.Proofs.Render.Simulation
set_option autoImplicit false

/-!
# Renders without a store

A name stands for the template in the store, or else for what its registered source compiles to.
Nothing else of the store is seen by a render, which adds to it the templates that it loads. Main
statements: `Store.effective_load`, loading changes no name's meaning, and `Engine.exec_render`.
-/

namespace Stencil

abbrev Catalogue := String → Except CompileError Template

namespace Store

variable (s : Store) (r : Registry)

def effective : Catalogue := fun name =>
  match s.find? name with
  | some c => .ok c.template
  | none => r.compile name

theorem find?_keep (name other : String) (t : Template) :
    (s.keep name t).find? other = if other = name then some ⟨t, s.count⟩ else s.find? other :=
  Entries.get?_insert name other (Compiled.mk t s.count) s.cache

theorem load_cases (name : String) :
    (∃ c, s.find? name = some c ∧ s.load r name = (.ok c, s)) ∨
    (∃ e, s.find? name = none ∧ r.compile name = .error e ∧ s.load r name = (.error e, s)) ∨
    (∃ t, s.find? name = none ∧ r.compile name = .ok t ∧
      s.load r name = (.ok ⟨t, s.count⟩, s.keep name t)) := by
  cases hf : s.find? name with
  | some c => exact .inl ⟨c, rfl, by simp [load, hf]⟩
  | none =>
    cases hc : r.compile name with
    | error e => exact .inr (.inl ⟨e, rfl, rfl, by simp [load, hf, hc]⟩)
    | ok t => exact .inr (.inr ⟨t, rfl, rfl, by simp [load, hf, hc]⟩)

theorem load_template (name : String) :
    (s.load r name).1.map Compiled.template = s.effective r name := by
  obtain ⟨c, hf, h⟩ | ⟨e, hf, hc, h⟩ | ⟨t, hf, hc, h⟩ := s.load_cases r name
  · simp [h, effective, hf, Except.map]
  · simp [h, effective, hf, hc, Except.map]
  · simp [h, effective, hf, hc, Except.map]

theorem load_error {s' : Store} {name : String} {e : CompileError}
    (h : s.load r name = (.error e, s')) : s' = s := by
  obtain ⟨_, _, hl⟩ | ⟨_, _, _, hl⟩ | ⟨_, _, _, hl⟩ := s.load_cases r name <;> simp_all

theorem find?_load_of_some {name other : String} {c : Compiled} (h : s.find? other = some c) :
    (s.load r name).2.find? other = some c := by
  obtain ⟨_, _, hl⟩ | ⟨_, _, _, hl⟩ | ⟨t, hf, _, hl⟩ := s.load_cases r name
  · rwa [hl]
  · rwa [hl]
  · have hne : other ≠ name := by
      rintro rfl
      rw [hf] at h
      cases h
    rwa [hl, find?_keep, if_neg hne]

/-- A load leaves every name's meaning as it is: what it adds is what the name meant before. -/
theorem effective_load (name : String) : (s.load r name).2.effective r = s.effective r := by
  obtain ⟨c, hf, h⟩ | ⟨e, hf, hc, h⟩ | ⟨t, hf, hc, h⟩ := s.load_cases r name
  · rw [h]
  · rw [h]
  · funext other
    rw [h]
    by_cases ho : other = name
    · subst ho
      simp [effective, find?_keep, hf, hc]
    · simp [effective, find?_keep, ho]

def loadAll (names : List String) : Store := names.foldl (fun s name => (s.load r name).2) s

theorem loadAll_append_one (names : List String) (name : String) :
    s.loadAll r (names ++ [name]) = ((s.loadAll r names).load r name).2 := by
  simp [loadAll]

theorem effective_loadAll (names : List String) :
    (s.loadAll r names).effective r = s.effective r := by
  induction names generalizing s with
  | nil => rfl
  | cons name names ih => exact (ih _).trans (s.effective_load r name)

theorem load_isSome_iff {name : String} (h : ∃ t, s.effective r name = .ok t) (other : String) :
    ((s.load r name).2.find? other).isSome ↔ (s.find? other).isSome ∨ other = name := by
  obtain ⟨t, ht⟩ := h
  obtain ⟨c, hf, hl⟩ | ⟨e, hf, hc, hl⟩ | ⟨t', hf, _, hl⟩ := s.load_cases r name
  · rw [hl]
    refine ⟨.inl, fun ho => ho.elim id ?_⟩
    rintro rfl
    simp [hf]
  · simp [effective, hf, hc] at ht
  · rw [hl, find?_keep]
    by_cases ho : other = name <;> simp [ho]

theorem loadAll_isSome_iff {names : List String}
    (h : ∀ name ∈ names, ∃ t, s.effective r name = .ok t) (other : String) :
    ((s.loadAll r names).find? other).isSome ↔ (s.find? other).isSome ∨ other ∈ names := by
  induction names generalizing s with
  | nil => simp [loadAll]
  | cons name names ih =>
    have hrest : ∀ n ∈ names, ∃ t, (s.load r name).2.effective r n = .ok t := by
      intro n hn
      rw [effective_load]
      exact h n (List.mem_cons_of_mem name hn)
    have hname := s.load_isSome_iff r (h name List.mem_cons_self) other
    have hnames := ih (s.load r name).2 hrest
    simp only [loadAll, List.foldl_cons, List.mem_cons] at hnames ⊢
    rw [hnames, hname, or_assoc]

theorem find?_loadAll_of_some {other : String} {c : Compiled} (names : List String)
    (h : s.find? other = some c) : (s.loadAll r names).find? other = some c := by
  induction names generalizing s with
  | nil => exact h
  | cons name names ih => exact ih _ (s.find?_load_of_some r h)

end Store

def Catalogue.load (c : Catalogue) (path : String) : Run Unit Template :=
  match c path with
  | .ok t => pure t
  | .error e => Run.fail (.embed (.ofCompile path e))

/-- The same host, which also notes the names whose templates it has loaded. -/
def Host.logged {σ : Type} (h : Host σ) : Host (σ × List String) where
  functions := h.functions
  settings := h.settings
  load path := fun (s, log) =>
    match (h.load path).exec s with
    | (.ok t, s) => (.ok t, (s, log ++ [path]))
    | (.error e, s) => (.error e, (s, log))

theorem Host.hosts_logged {σ : Type} (h : Host σ) :
    (Simulation.exact fun (s : σ) (p : σ × List String) => p.1 = s).Hosts h h.logged where
  eval _ _ e := Simulation.follows_ofEval _
  limit := rfl
  load path := by
    rintro s ⟨t, log⟩ rfl
    rw [Simulation.answers_exact]
    simp only [Host.logged, Run.exec]
    rcases h.load path t with ⟨e | c, t'⟩ <;> exact ⟨rfl, rfl⟩

namespace Engine

def effective (e : Engine) : Catalogue := e.store.effective e.registry

/-- What a render sees of the engine. -/
def reference (e : Engine) : Host Unit :=
  ⟨e.world.functions, e.world.settings, e.effective.load⟩

/-- The store is the one at the start with the noted names loaded, each of which stands for a
template. -/
def Noted (e : Engine) (s : Store) (log : List String) : Prop :=
  s = e.store.loadAll e.registry log ∧ ∀ name ∈ log, ∃ t, e.effective name = .ok t

theorem noted_nil (e : Engine) : e.Noted e.store [] := ⟨rfl, by simp⟩

theorem Noted.effective {e : Engine} {s : Store} {log : List String} (h : e.Noted s log) :
    s.effective e.registry = e.effective := by
  rw [h.1]
  exact e.store.effective_loadAll e.registry log

theorem Noted.load {e : Engine} {s : Store} {log : List String} (h : e.Noted s log)
    {name : String} {t : Template} (ht : e.effective name = .ok t) :
    e.Noted (s.load e.registry name).2 (log ++ [name]) := by
  refine ⟨?_, fun other ho => ?_⟩
  · rw [Store.loadAll_append_one, ← h.1]
  · obtain ho | ho := List.mem_append.1 ho
    · exact h.2 other ho
    · rw [List.mem_singleton.1 ho]
      exact ⟨t, ht⟩

theorem Noted.exec_load {e : Engine} {s : Store} {log : List String} (h : e.Noted s log)
    (path : String) :
    (∃ t s', e.effective path = .ok t ∧ e.Noted s' (log ++ [path]) ∧
      (e.world.host.logged.load path).exec (s, log) = (.ok t, (s', log ++ [path]))) ∨
    ∃ cause, e.effective path = .error cause ∧
      (e.world.host.logged.load path).exec (s, log) =
        (.error (.error (.embed (.ofCompile path cause))), (s, log)) := by
  have htemplate := s.load_template e.registry path
  rw [h.effective] at htemplate
  rcases hl : s.load e.registry path with ⟨cause | c, s'⟩
  · have he : e.effective path = .error cause := by rw [← htemplate, hl]; rfl
    obtain rfl := s.load_error e.registry hl
    simp only [registry] at hl
    exact .inr ⟨cause, he, by
      simp [Host.logged, World.host, World.loadIncluded, Run.exec, hl]⟩
  · have he : e.effective path = .ok c.template := by rw [← htemplate, hl]; rfl
    have hnoted := h.load he
    rw [hl] at hnoted
    simp only [registry] at hl
    exact .inl ⟨c.template, s', he, hnoted, by
      simp [Host.logged, World.host, World.loadIncluded, Run.exec, hl]⟩

theorem hosts_reference (e : Engine) :
    (Simulation.exact fun p (_ : Unit) => e.Noted p.1 p.2).Hosts e.world.host.logged
      e.reference where
  eval _ _ _ := Simulation.follows_ofEval _
  limit := rfl
  load path := by
    rintro ⟨s, log⟩ ⟨⟩ (h : e.Noted s log)
    rw [Simulation.answers_exact]
    obtain ⟨t, s', he, hnoted, hl⟩ | ⟨cause, he, hl⟩ := h.exec_load path
    · exact ⟨by simp [hl, reference, Catalogue.load, he, Run.exec_pure], by rwa [hl]⟩
    · exact ⟨by simp [hl, reference, Catalogue.load, he, Run.exec_fail], by rwa [hl]⟩

def loads (e : Engine) (t : Template) (context : Value) : List String :=
  ((e.world.host.logged.render e.world.levels t context).exec (e.store, [])).2.2

/-- The second engine is the first with these names loaded, each of which stands for a template. -/
structure Filled (e : Engine) (names : List String) (e' : Engine) : Prop where
  store : e'.store = e.store.loadAll e.registry names
  world : e'.world = e.world
  loaded : ∀ name ∈ names, ∃ t, e.effective name = .ok t

theorem filled_nil (e : Engine) : e.Filled [] e := ⟨rfl, rfl, by simp⟩

namespace Filled

variable {e e' e'' : Engine} {names names' : List String}

theorem registry (h : e.Filled names e') : e'.registry = e.registry :=
  congrArg World.registry h.world

theorem effective (h : e.Filled names e') : e'.effective = e.effective := by
  simp only [Engine.effective, h.store, h.registry]
  exact e.store.effective_loadAll e.registry names

theorem find? (h : e.Filled names e') {name : String} {c : Compiled}
    (hc : e.store.find? name = some c) : e'.store.find? name = some c := by
  rw [h.store]
  exact e.store.find?_loadAll_of_some e.registry names hc

theorem trans (h : e.Filled names e') (h' : e'.Filled names' e'') :
    e.Filled (names ++ names') e'' where
  store := by simp [h'.store, h.store, h.registry, Store.loadAll]
  world := h'.world.trans h.world
  loaded name hn := by
    obtain hn | hn := List.mem_append.1 hn
    · exact h.loaded name hn
    · have hl := h'.loaded name hn
      rwa [h.effective] at hl

end Filled

/-- A render ends as it does without a store, and loads what it notes. -/
theorem renderTemplate_filled (e : Engine) (t : Template) (context : Value) :
    (e.renderTemplate t context).1 = ((e.reference.render e.world.levels t context).exec ()).1 ∧
      e.Filled (e.loads t context) (e.renderTemplate t context).2 := by
  have hlogged := Simulation.follows_render e.world.host.hosts_logged e.world.levels t context
    e.store (e.store, []) rfl
  have hnoted := Simulation.follows_render e.hosts_reference e.world.levels t context
    (e.store, []) () e.noted_nil
  rw [Simulation.answers_exact] at hlogged hnoted
  obtain ⟨houtcome, hstore⟩ := hlogged
  obtain ⟨houtcome', hstore', hloads⟩ := hnoted
  exact ⟨houtcome.trans houtcome', hstore.symm.trans hstore', rfl, hloads⟩

theorem compile_filled (e : Engine) (name : String) :
    (e.compile name).1.map Compiled.template = e.effective name ∧
      e.Filled (if (e.compile name).1.isOk then [name] else []) (e.compile name).2 := by
  have htemplate : (e.compile name).1.map Compiled.template = e.effective name :=
    e.store.load_template e.registry name
  refine ⟨htemplate, ?_⟩
  rcases hl : e.store.load e.registry name with ⟨cause | c, s⟩
  · have hc : e.compile name = (.error cause, { e with store := s }) := by simp [compile, hl]
    obtain rfl := e.store.load_error e.registry hl
    rw [hc]
    exact e.filled_nil
  · have hc : e.compile name = (.ok c, { e with store := s }) := by simp [compile, hl]
    rw [hc] at htemplate ⊢
    refine ⟨?_, rfl, ?_⟩
    · simp [Except.isOk, Except.toBool, Store.loadAll, hl]
    · intro other ho
      obtain rfl : other = name := by simpa [Except.isOk, Except.toBool] using ho
      exact ⟨c.template, htemplate.symm⟩

end Engine

end Stencil
