import Mathlib.Data.List.Induction
import Stencil.Proofs.Engine.Calls
set_option autoImplicit false

/-!
# What is in the store

The store holds the names that have been loaded since it was last cleared, each with the template that
its source compiled to when it was loaded first. Sources may change meanwhile. Main statements:
`isCached_after_iff` and `exists_first_load`, by induction on the operations, the last one first.
-/

namespace Stencil

namespace Store

def Numbered (s : Store) : Prop := ∀ name c, s.find? name = some c → c.stamp < s.count

theorem Numbered.load {s : Store} (h : s.Numbered) (r : Registry) (name : String) :
    (s.load r name).2.Numbered := by
  obtain ⟨_, _, hl⟩ | ⟨_, _, _, hl⟩ | ⟨t, _, _, hl⟩ := s.load_cases r name
  · rwa [hl]
  · rwa [hl]
  · intro other c hc
    rw [hl, find?_keep] at hc
    have hcount : (s.load r name).2.count = s.count + 1 := by rw [hl]; rfl
    split at hc
    · cases hc
      simp only [hcount]
      omega
    · have hlt := h other c hc
      omega

theorem Numbered.loadAll {s : Store} (h : s.Numbered) (r : Registry) (names : List String) :
    (s.loadAll r names).Numbered := by
  induction names generalizing s with
  | nil => exact h
  | cons name names ih => exact ih (h.load r name)

end Store

theorem Template.name_of_compile {name : Option String} {source : String} {t : Template}
    (h : Template.compile name source = .ok t) : t.name = name := by
  unfold Template.compile at h
  cases hp : Markup.pieces source with
  | error e => simp [hp, bind, Except.bind] at h
  | ok ps =>
    cases ha : assemble ps with
    | error e => simp [hp, ha, bind, Except.bind] at h
    | ok is =>
      simp only [hp, ha, bind, Except.bind, pure, Except.pure, Except.ok.injEq] at h
      rw [← h]

inductive Operation where
  | set (name source : String)
  | remove (name : String)
  | clear
  | clearCache
  | addFunction (name : String) (f : Function)
  | ask (call : Call)

namespace Engine

theorem find?_ofSettings (settings : Settings) (room : Nat) (name : String) :
    (ofSettings settings room).store.find? name = none := rfl

theorem find?_clearCache (e : Engine) (name : String) : e.clearCache.store.find? name = none := rfl

end Engine

namespace Operation

def run (e : Engine) : Operation → Engine
  | .set name source => e.set name source
  | .remove name => e.remove name
  | .clear => e.clear
  | .clearCache => e.clearCache
  | .addFunction name f => e.addFunction name f
  | .ask call => (e.answer call).2

def loads (e : Engine) : Operation → List String
  | .ask call => call.loads e
  | _ => []

theorem effective_of_mem_loads (op : Operation) {e : Engine} {name : String}
    (h : name ∈ op.loads e) : ∃ t, e.effective name = .ok t := by
  cases op with
  | ask call => exact (e.answer_filled call).loaded name h
  | _ => simp [loads] at h

theorem run_store {op : Operation} (h : op ≠ .clearCache) (e : Engine) :
    (op.run e).store = e.store.loadAll e.registry (op.loads e) := by
  cases op with
  | ask call => exact (e.answer_filled call).store
  | clearCache => exact absurd rfl h
  | _ => rfl

theorem run_find?_of_some {op : Operation} (h : op ≠ .clearCache) {e : Engine} {name : String}
    {c : Compiled} (hc : e.store.find? name = some c) :
    (op.run e).store.find? name = some c := by
  rw [run_store h]
  exact e.store.find?_loadAll_of_some e.registry (op.loads e) hc

theorem run_isCached_iff (op : Operation) (e : Engine) (name : String) :
    (op.run e).isCached name ↔
      (op ≠ .clearCache ∧ e.isCached name) ∨ name ∈ op.loads e := by
  by_cases h : op = .clearCache
  · subst h
    simp [run, loads, Engine.isCached, e.find?_clearCache]
  · have hloads := e.store.loadAll_isSome_iff e.registry
      (fun _ => op.effective_of_mem_loads) name
    simp only [Engine.isCached, run_store h, hloads, ne_eq, h, not_false_eq_true, true_and]

theorem run_numbered {e : Engine} (op : Operation) (h : e.store.Numbered) :
    (op.run e).store.Numbered := by
  by_cases hop : op = .clearCache
  · subst hop
    intro name c hc
    simp [run, e.find?_clearCache] at hc
  · rw [run_store hop]
    exact h.loadAll e.registry (op.loads e)

theorem run_source {op : Operation} (h : op ≠ .clearCache) {e : Engine} {name : String}
    {c : Compiled} (hc : (op.run e).store.find? name = some c) (hn : e.store.find? name = none) :
    ∃ source, e.get? name = some source ∧ Template.compile (some name) source = .ok c.template := by
  rw [run_store h] at hc
  have heffective := congrFun (e.store.effective_loadAll e.registry (op.loads e)) name
  simp only [Store.effective, hc, hn, Registry.compile] at heffective
  split at heffective
  · cases heffective
  · next source hs => exact ⟨source, hs, heffective.symm⟩

end Operation

namespace Engine

def after (e : Engine) (ops : List Operation) : Engine := ops.foldl Operation.run e

/-- The name has been loaded since the cache was last cleared. -/
def Loaded (e : Engine) (ops : List Operation) (name : String) : Prop :=
  ∃ before op behind, ops = before ++ op :: behind ∧ .clearCache ∉ behind ∧
    name ∈ op.loads (e.after before)

theorem after_append_one (e : Engine) (ops : List Operation) (op : Operation) :
    e.after (ops ++ [op]) = op.run (e.after ops) := by
  simp [after]

theorem loaded_append_one_iff (e : Engine) (ops : List Operation) (op : Operation) (name : String) :
    e.Loaded (ops ++ [op]) name ↔
      (op ≠ .clearCache ∧ e.Loaded ops name) ∨ name ∈ op.loads (e.after ops) := by
  constructor
  · rintro ⟨before, op', behind, h, hclear, hn⟩
    obtain rfl | ⟨behind, last, rfl⟩ := behind.eq_nil_or_concat
    · obtain ⟨rfl, rfl⟩ := List.append_singleton_inj.1 h
      exact .inr hn
    · rw [List.concat_eq_append, ← List.cons_append, ← List.append_assoc] at h
      obtain ⟨rfl, rfl⟩ := List.append_singleton_inj.1 h
      simp only [List.concat_eq_append, List.mem_append, List.mem_singleton, not_or] at hclear
      exact .inl ⟨Ne.symm hclear.2, before, op', behind, rfl, hclear.1, hn⟩
  · rintro (⟨hop, before, op', behind, rfl, hclear, hn⟩ | hn)
    · refine ⟨before, op', behind ++ [op], by simp, ?_, hn⟩
      simp only [List.mem_append, List.mem_singleton, not_or]
      exact ⟨hclear, Ne.symm hop⟩
    · exact ⟨ops, op, [], rfl, by simp, hn⟩

section

variable (settings : Settings) (room : Nat)

theorem isCached_after_iff (ops : List Operation) (name : String) :
    ((ofSettings settings room).after ops).isCached name ↔
      (ofSettings settings room).Loaded ops name := by
  induction ops using List.reverseRecOn with
  | nil => simp [after, isCached, find?_ofSettings, Loaded]
  | append_singleton ops op ih =>
    rw [after_append_one, op.run_isCached_iff, loaded_append_one_iff, ih]

theorem exists_first_load {ops : List Operation} {name : String} {c : Compiled}
    (hc : ((ofSettings settings room).after ops).store.find? name = some c) :
    ∃ before op behind source, ops = before ++ op :: behind ∧ .clearCache ∉ behind ∧
      name ∈ op.loads ((ofSettings settings room).after before) ∧
      ¬ (ofSettings settings room).Loaded before name ∧
      ((ofSettings settings room).after before).get? name = some source ∧
      Template.compile (some name) source = .ok c.template := by
  induction ops using List.reverseRecOn with
  | nil => simp [after, find?_ofSettings] at hc
  | append_singleton ops op ih =>
    have hop : op ≠ .clearCache := by
      rintro rfl
      simp [after_append_one, Operation.run, find?_clearCache] at hc
    rw [after_append_one] at hc
    cases hf : ((ofSettings settings room).after ops).store.find? name with
    | some c' =>
      have hkept := Operation.run_find?_of_some hop hf
      obtain rfl : c' = c := Option.some.inj (hkept.symm.trans hc)
      obtain ⟨before, first, behind, source, rfl, hclear, h⟩ := ih hf
      refine ⟨before, first, behind ++ [op], source, by simp, ?_, h⟩
      simp only [List.mem_append, List.mem_singleton, not_or]
      exact ⟨hclear, Ne.symm hop⟩
    | none =>
      have hnot : ¬ ((ofSettings settings room).after ops).isCached name := by simp [isCached, hf]
      obtain ⟨source, hs, ht⟩ := Operation.run_source hop hc hf
      have hcached := (op.run_isCached_iff ((ofSettings settings room).after ops) name).1 (by
        simp [isCached, hc])
      refine ⟨ops, op, [], source, rfl, by simp, ?_, ?_, hs, ht⟩
      · exact hcached.resolve_left fun h => hnot h.2
      · rwa [isCached_after_iff] at hnot

end

theorem after_find?_of_some {ops : List Operation} (h : .clearCache ∉ ops) {e : Engine}
    {name : String} {c : Compiled} (hc : e.store.find? name = some c) :
    (e.after ops).store.find? name = some c := by
  induction ops generalizing e with
  | nil => exact hc
  | cons op ops ih =>
    simp only [List.mem_cons, not_or] at h
    exact ih h.2 (Operation.run_find?_of_some (Ne.symm h.1) hc)

theorem compile_of_find? {e : Engine} {name : String} {c : Compiled}
    (h : e.store.find? name = some c) : (e.compile name).1 = .ok c := by
  simp [compile, Store.load, h]

theorem find?_of_compile {e : Engine} {name : String} {c : Compiled}
    (h : (e.compile name).1 = .ok c) : (e.compile name).2.store.find? name = some c := by
  obtain ⟨d, hf, hl⟩ | ⟨cause, _, _, hl⟩ | ⟨t, _, _, hl⟩ := e.store.load_cases e.registry name
  · simp_all [compile]
  · simp [compile, hl] at h
  · simp_all [compile, Store.find?_keep]

theorem compile_after_compile {e : Engine} {name : String} {c : Compiled} {later : List Operation}
    (hc : (e.compile name).1 = .ok c) (h : .clearCache ∉ later) :
    (((e.compile name).2.after later).compile name).1 = .ok c :=
  compile_of_find? (after_find?_of_some h (find?_of_compile hc))

theorem stamp_of_compile {e : Engine} {name : String} {c : Compiled}
    (hf : e.store.find? name = none) (hc : (e.compile name).1 = .ok c) :
    c.stamp = e.store.count := by
  obtain ⟨d, hd, _⟩ | ⟨cause, _, _, hl⟩ | ⟨t, _, _, hl⟩ := e.store.load_cases e.registry name
  · rw [hf] at hd
    cases hd
  · simp [compile, hl] at hc
  · simp only [compile, hl, Except.ok.injEq] at hc
    rw [← hc]

theorem stamp_after_clearCache {e : Engine} {name : String} {c d : Compiled}
    (h : e.store.Numbered) (hc : (e.compile name).1 = .ok c)
    (hd : ((e.compile name).2.clearCache.compile name).1 = .ok d) : d.stamp ≠ c.stamp := by
  have hnumbered : (e.compile name).2.store.Numbered := h.load e.registry name
  have hlt := hnumbered name c (find?_of_compile hc)
  have hfresh : d.stamp = (e.compile name).2.clearCache.store.count :=
    stamp_of_compile (find?_clearCache _ name) hd
  have hcount : (e.compile name).2.clearCache.store.count = (e.compile name).2.store.count := rfl
  omega

theorem compile_of_error {e : Engine} {name : String} {cause : CompileError}
    (h : (e.compile name).1 = .error cause) : (e.compile name).2 = e := by
  obtain ⟨d, _, hl⟩ | ⟨cause, _, _, hl⟩ | ⟨t, _, _, hl⟩ := e.store.load_cases e.registry name
  · simp [compile, hl]
  · simp [compile, hl]
  · simp [compile, hl] at h

theorem numbered_after (settings : Settings) (room : Nat) (ops : List Operation) :
    ((ofSettings settings room).after ops).store.Numbered := by
  induction ops using List.reverseRecOn with
  | nil =>
    intro name c hc
    simp [after, find?_ofSettings] at hc
  | append_singleton ops op ih =>
    rw [after_append_one]
    exact op.run_numbered ih

theorem renderSource_isCached_iff (e : Engine) (source : String) (context : Value) (name : String) :
    (e.renderSource source context).2.isCached name ↔
      e.isCached name ∨ ∃ t, compileSource source = .ok t ∧ name ∈ e.loads t context := by
  have hiff := (Operation.ask (.renderSource source context)).run_isCached_iff e name
  simp only [Operation.run, answer] at hiff
  rw [hiff]
  cases hc : compileSource source <;> simp [Operation.loads, Call.loads, hc]

/-- After any operations a name is in the store if and only if it has been loaded since the cache was
last cleared. Its template is then the one that the source registered at the first load compiles to,
and compiling gives this very object until the cache is cleared, whatever becomes of the source. What
fails to compile and what has no name is not kept; sources and cache are changed apart. -/
theorem store_history (settings : Settings) (room : Nat) (ops : List Operation) (name : String) :
    let start := ofSettings settings room
    let e := start.after ops
    (e.isCached name ↔ start.Loaded ops name) ∧
    (∀ c, e.store.find? name = some c → c.template.name = some name ∧
      ∃ before op behind source, ops = before ++ op :: behind ∧ .clearCache ∉ behind ∧
        name ∈ op.loads (start.after before) ∧ ¬ start.Loaded before name ∧
        (start.after before).get? name = some source ∧
        Template.compile (some name) source = .ok c.template) ∧
    (∀ c, (e.compile name).1 = .ok c →
      (∀ later, .clearCache ∉ later → (((e.compile name).2.after later).compile name).1 = .ok c) ∧
      ∀ d, ((e.compile name).2.clearCache.compile name).1 = .ok d → d.stamp ≠ c.stamp) ∧
    (∀ cause, (e.compile name).1 = .error cause → (e.compile name).2 = e) ∧
    (∀ source, (e.answer (.compileSource source)).2 = e) ∧
    (∀ source context, (e.renderSource source context).2.isCached name ↔
      e.isCached name ∨ ∃ t, compileSource source = .ok t ∧ name ∈ e.loads t context) ∧
    (∀ other source, (e.set other source).store = e.store ∧ (e.remove other).store = e.store ∧
      e.clear.store = e.store) ∧
    e.clearCache.registry = e.registry := by
  intro start e
  refine ⟨isCached_after_iff settings room ops name, fun c hc => ?_, fun c hc => ⟨?_, ?_⟩, ?_, ?_,
    ?_, ?_, rfl⟩
  · obtain ⟨before, op, behind, source, h⟩ := exists_first_load settings room hc
    exact ⟨Template.name_of_compile h.2.2.2.2.2, before, op, behind, source, h⟩
  · exact fun later h => compile_after_compile hc h
  · exact fun d hd => stamp_after_clearCache (numbered_after settings room ops) hc hd
  · exact fun cause h => compile_of_error h
  · exact fun source => rfl
  · exact fun source context => renderSource_isCached_iff e source context name
  · exact fun other source => ⟨rfl, rfl, rfl⟩

/-- A render that fails behind an include keeps both templates, whatever becomes of their sources, until the
cache is cleared. -/
theorem failing_render_kept :
    let start := ofSettings {} 9
    let nothing := Value.object []
    let before : List Operation := [.ask (.compile "logo"), .set "logo" "L",
      .set "page" "[$\x7binclude logo\x7d]$\x7bnope\x7d"]
    let ops := before ++ [.ask (.render "page" nothing), .set "page" "new", .remove "logo"]
    let later := ops ++ [.clearCache, .ask (.renderSource "$\x7binclude page\x7d" nothing),
      .ask (.compileSource "x"), .ask (.compile "logo")]
    ((start.after before).render "page" nothing).1 =
      .error (.error (.render (.undefinedVariable "nope"))) ∧
    ¬ start.Loaded before "logo" ∧ start.Loaded ops "logo" ∧ start.Loaded ops "page" ∧
    (∃ c, ((start.after ops).compile "page").1 = .ok c ∧
      ((((start.after ops).compile "page").2.after [.clear, .ask (.render "page" nothing)]).compile "page").1 =
        .ok c) ∧
    start.Loaded later "page" ∧ ¬ start.Loaded later "logo" := by
  intro start nothing before ops later
  have hfails : ((start.after before).render "page" nothing).1 =
      .error (.error (.render (.undefinedVariable "nope"))) := by decide +kernel
  have hbefore : ¬ (start.after before).isCached "logo" := by decide +kernel
  have hlogo : (start.after ops).isCached "logo" := by decide +kernel
  have hpage : (start.after ops).isCached "page" := by decide +kernel
  have hpage' : (start.after later).isCached "page" := by decide +kernel
  have hlogo' : ¬ (start.after later).isCached "logo" := by decide +kernel
  obtain ⟨c, hc⟩ := Option.isSome_iff_exists.1 hpage
  have hcompile := compile_of_find? hc
  obtain ⟨hiff, -, hkept, -⟩ := store_history {} 9 ops "page"
  refine ⟨hfails, ?_, ?_, hiff.1 hpage, ⟨c, hcompile, (hkept c hcompile).1 _ (by simp)⟩, ?_, ?_⟩
  · rwa [← (store_history {} 9 before "logo").1]
  · exact (store_history {} 9 ops "logo").1.1 hlogo
  · exact (store_history {} 9 later "page").1.1 hpage'
  · rwa [← (store_history {} 9 later "logo").1]

end Engine

end Stencil
