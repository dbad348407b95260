import Stencil.Proofs.Engine.Blame
import Stencil.Proofs.Engine.Headings
import Stencil.Proofs.Engine.Pages
set_option autoImplicit false

/-!
# The text under a diagnostic

A diagnostic is drawn over the text that is registered when it is asked for. The template that has failed
was compiled from the text that was registered then. Main statements: `Engine.get?_after`, on what is
registered, `Engine.exists_compiled_from`, on what was compiled, and `Engine.diagnose_drawn`.
-/

namespace Stencil

open Text

/-- The span marks in the source the token at which this text goes wrong, or else the end of the text. -/
def Report.Marks (r : Report) (text : String) (found : Option Expr.Token) : Prop :=
  ∃ offset, (⟨offset, offset + byteLength text.toList⟩ : Span).Covers r.source.toList text.toList ∧
    match found with
    | some token => ∃ span, ⟨token, span⟩ ∈ Expr.lex text ∧ r.span = span.shift offset
    | none => r.span.start = offset + byteLength text.toList

theorem Template.Misspells.marks {name : Option String} {text source : String} {t : Template}
    {x : Expr.SyntaxError} (h : t.Misspells source x) (ht : compile name text = .ok t) {r : Report}
    (hsource : r.source = text) (hspan : r.span = x.span) : r.Marks source x.found := by
  obtain ⟨e, he, rfl, hx⟩ := h
  obtain ⟨y, hy, rfl⟩ := (standsIn_of_mem_expressions ht he).1.parsed_eq_error hx
  refine ⟨e.offset, hsource ▸ covers_of_mem_expressions ht he, ?_⟩
  rw [hspan]
  obtain ⟨token, hfound, htoken⟩ | ⟨hfound, hstart⟩ := Expr.parse_error_found hy
  · simp only [Expr.SyntaxError.shift, hfound]
    exact ⟨y.span, htoken, rfl⟩
  · simp only [Expr.SyntaxError.shift, hfound, Span.shift, hstart, Nat.add_comm]

namespace Operation

def text? (name : String) : Operation → Option String
  | .set other source => if name = other then some source else none
  | _ => none

theorem run_get? (op : Operation) {e : Engine} {name s : String}
    (h : (op.run e).get? name = some s) : (op.text? name).or (e.get? name) = some s := by
  cases op with
  | set other source =>
    have hget : ((Operation.set other source).run e).get? name =
        if name = other then some source else e.get? name := e.registry.get?_set other name source
    rw [hget] at h
    by_cases hname : name = other
    · simpa [text?, hname] using h
    · simpa [text?, hname] using h
  | remove other =>
    have hget : ((Operation.remove other).run e).get? name =
        if name = other then none else e.get? name := e.registry.get?_remove other name
    rw [hget] at h
    split at h
    · cases h
    · exact h
  | clear => cases h
  | clearCache => exact h
  | addFunction => exact h
  | ask call =>
    have hworld : (e.answer call).2.world = e.world := (e.answer_filled call).world
    have hget : (e.answer call).2.get? name = e.get? name := by
      simp only [Engine.get?, Engine.registry, hworld]
    exact hget.symm.trans h

end Operation

namespace Engine

def lastText (name : String) (ops : List Operation) : Option String :=
  (ops.filterMap (Operation.text? name)).getLast?

theorem lastText_append_one (name : String) (ops : List Operation) (op : Operation) :
    lastText name (ops ++ [op]) = (op.text? name).or (lastText name ops) := by
  rw [lastText, List.filterMap_append, List.getLast?_append]
  cases ht : op.text? name <;> simp [lastText, ht]

theorem get?_after (e : Engine) {ops : List Operation} {name s : String}
    (h : (e.after ops).get? name = some s) : (lastText name ops).or (e.get? name) = some s := by
  induction ops using List.reverseRecOn generalizing s with
  | nil => exact h
  | append_singleton ops op ih =>
    rw [after_append_one] at h
    have hop := op.run_get? h
    rw [lastText_append_one, Option.or_assoc]
    cases ht : op.text? name with
    | some text => rwa [ht] at hop
    | none =>
      rw [ht] at hop
      exact ih hop

/-- What is registered now is the text that was registered then if and only if no other one has been
registered since, or that one again at last. -/
theorem get?_after_iff (e : Engine) {ops : List Operation} {name s text : String}
    (htext : e.get? name = some text) (h : (e.after ops).get? name = some s) :
    s = text ↔ ∀ t ∈ lastText name ops, t = text := by
  have hlast := e.get?_after h
  rw [htext] at hlast
  cases hl : lastText name ops with
  | none =>
    rw [hl] at hlast
    exact iff_of_true (Option.some.inj hlast).symm (by simp)
  | some t =>
    rw [hl] at hlast
    obtain rfl : t = s := Option.some.inj hlast
    simp

/-- The template was compiled from this text. It was registered after the first operations, when there was
no template in the store; the next one compiles it, or else what comes behind them all. -/
structure CompiledFrom (start : Engine) (before behind : List Operation) (name text : String)
    (t : Template) : Prop where
  absent : (start.after before).isCached name = false
  registered : (start.after before).get? name = some text
  compiles : Template.compile (some name) text = .ok t
  next : ∀ op ∈ behind.head?, name ∈ op.loads (start.after before)

section

variable (settings : Settings) (room : Nat)

theorem exists_compiled_from {ops : List Operation} {name : String} {t : Template}
    (h : ((ofSettings settings room).after ops).effective name = .ok t) :
    ∃ before behind text, ops = before ++ behind ∧
      (ofSettings settings room).CompiledFrom before behind name text t := by
  simp only [effective, Store.effective] at h
  split at h
  · next c hc =>
    cases h
    obtain ⟨before, op, behind, text, hops, -, hloads, hnot, hget, hcompile⟩ :=
      exists_first_load settings room hc
    rw [← isCached_after_iff, Bool.not_eq_true] at hnot
    refine ⟨before, op :: behind, text, hops, hnot, hget, hcompile, ?_⟩
    rintro _ ⟨⟩
    exact hloads
  · next hf =>
    unfold Registry.compile at h
    split at h
    · cases h
    · next text hget =>
      refine ⟨ops, [], text, (List.append_nil ops).symm, ?_, hget, h, by simp⟩
      simp [isCached, hf]

/-- The template has no name, or one of the calls has compiled it under its name. -/
def Held (start : Engine) (ops : List Operation) (t : Template) : Prop :=
  t.name = none ∨ ∃ before behind name, ops = before ++ .ask (.compile name) :: behind ∧
    ((start.after before).compile name).1.map Compiled.template = .ok t

theorem Held.exists_compiled_from {ops : List Operation} {name : String} {t : Template}
    (h : (ofSettings settings room).Held ops t) (hname : t.name = some name) :
    ∃ before behind text, ops = before ++ behind ∧
      (ofSettings settings room).CompiledFrom before behind name text t := by
  obtain hnone | ⟨before, behind, other, rfl, hcompile⟩ := h
  · rw [hname] at hnone
    cases hnone
  · have heffective := (((ofSettings settings room).after before).compile_filled other).1
    rw [hcompile] at heffective
    have hother := named_after settings room before other t heffective.symm
    obtain rfl : name = other := Option.some.inj (hname.symm.trans hother)
    obtain ⟨first, middle, text, rfl, hfrom⟩ :=
      Engine.exists_compiled_from settings room heffective.symm
    refine ⟨first, middle ++ .ask (.compile name) :: behind, text, by simp, hfrom.absent,
      hfrom.registered, hfrom.compiles, fun op hop => ?_⟩
    cases middle with
    | cons op' middle => exact hfrom.next op hop
    | nil =>
      cases hop
      rw [List.append_nil] at hcompile
      cases hc : (((ofSettings settings room).after first).compile name).1 with
      | ok c => simp [Operation.loads, Call.loads, hc, Except.isOk, Except.toBool]
      | error cause =>
        rw [hc] at hcompile
        cases hcompile

end

theorem renderPage_world (e : Engine) (page : Page) (context : Value) :
    (e.renderPage page context).2.world = e.world := by
  cases page with
  | compiled t => exact (e.renderTemplate_filled t context).2.world
  | named name => exact (e.render_filled name context).2.world
  | source text => exact (e.renderSource_filled text context).2.world

theorem renderTemplate_eq_after (e : Engine) (t : Template) (context : Value) :
    (e.renderTemplate t context).2 =
      e.after ((e.loads t context).map fun name => .ask (.compile name)) := by
  have hfilled := (e.renderTemplate_filled t context).2
  have hcompiles (names : List String) (e : Engine) :
      e.after (names.map fun name => .ask (.compile name)) =
        { e with store := e.store.loadAll e.registry names } := by
    induction names generalizing e with
    | nil => rfl
    | cons name names ih => exact ih _
  rw [hcompiles, ← hfilled.store, ← hfilled.world]

theorem diagnose_misspelled (e : Engine) (first name source : String) (x : Expr.SyntaxError) :
    (e.diagnose first (.render (.expression (some name) source x)) = none ↔ e.get? name = none) ∧
      ∀ d, e.diagnose first (.render (.expression (some name) source x)) = some d → d ≠ .aborted →
        ∃ r : Report, d = .located r ∧ r.name = name ∧ r.span = x.span ∧
          e.get? name = some r.source := by
  cases hget : e.get? name with
  | none => simp [diagnose, hget]
  | some text =>
    have hlocation : (Error.render (.expression (some name) source x)).location? first =
        some (name, x.span) := rfl
    obtain ⟨message, label, hdiagnose⟩ := e.diagnose_of_location? first hlocation hget
    refine ⟨by simp [hdiagnose], fun d hd hshown => ?_⟩
    obtain rfl := Option.some.inj (hdiagnose.symm.trans hd)
    rw [ne_eq, Diagnostic.ofSpan_eq_aborted_iff, Nat.not_lt] at hshown
    exact ⟨_, Diagnostic.ofSpan_of_le hshown, rfl, rfl, rfl⟩

theorem openPage_effective (e : Engine) (page : Page) :
    (e.openPage page).2.effective = e.effective := by
  cases page with
  | compiled t => rfl
  | named name => exact (e.compile_filled name).2.effective
  | source text => rfl

theorem exists_compiled_from_of_openPage (settings : Settings) (room : Nat) {ops : List Operation}
    {page : Page} {t : Template} {name : String}
    (hheld : ∀ t, page = .compiled t → (ofSettings settings room).Held ops t)
    (ht : (((ofSettings settings room).after ops).openPage page).1 = .ok t)
    (hname : t.name = some name) :
    ∃ before behind text, ops = before ++ behind ∧
      (ofSettings settings room).CompiledFrom before behind name text t := by
  cases page with
  | compiled u =>
    cases ht
    exact (hheld _ rfl).exists_compiled_from settings room hname
  | named other =>
    have heffective := (((ofSettings settings room).after ops).compile_filled other).1
    have hother : ((ofSettings settings room).after ops).effective other = .ok t :=
      heffective.symm.trans ht
    have hother' := named_after settings room ops other t hother
    obtain rfl : name = other := Option.some.inj (hname.symm.trans hother')
    exact Engine.exists_compiled_from settings room hother
  | source text =>
    rw [Template.name_of_compile ht] at hname
    cases hname

/-- The diagnostic of a syntax error in a template with a name is drawn over the text that is registered
under it when it is asked for, unless the process is aborted; there is none if no text is. What failed was
compiled from the text that was registered at the time. Both are the same text if and only if the last one that
has been registered under the name since then, if any, is that one again, and then the report marks the token at
fault. Among the operations renders of a template that is held count as the compile calls to which they
amount. -/
theorem diagnose_drawn (settings : Settings) (room : Nat) (ops : List Operation) (page : Page)
    (context : Value) (first name source : String) (x : Expr.SyntaxError) :
    let start := ofSettings settings room
    let e := start.after ops
    let opened := e.openPage page
    let rendered := e.renderPage page context
    let err : Error := .render (.expression (some name) source x)
    (∀ held other, (e.renderTemplate held other).2 =
      e.after ((e.loads held other).map fun loaded => .ask (.compile loaded))) ∧
    ((∀ t, page = .compiled t → start.Held ops t) → rendered.1 = .error (.error err) →
      (rendered.2.diagnose first err = none ↔ e.get? name = none) ∧
      ∃ t, opened.1 = .ok t ∧
        (∃ u, opened.2.Ran t (opened.2.loads t context) (some name) u ∧ u.Misspells source x) ∧
        ∀ u, opened.2.Ran t (opened.2.loads t context) (some name) u → u.Misspells source x →
          ∃ before behind text, ops = before ++ behind ∧
            start.CompiledFrom before behind name text u ∧
            ∀ d, rendered.2.diagnose first err = some d → d ≠ .aborted →
              ∃ r : Report, d = .located r ∧ r.name = name ∧ r.span = x.span ∧
                e.get? name = some r.source ∧ (∀ across, r.DrawnOver across r.source.toList) ∧
                (r.source = text ↔ ∀ s ∈ lastText name behind, s = text) ∧
                (r.source = text → r.Marks source x.found)) := by
  intro start e opened rendered err
  refine ⟨fun held other => e.renderTemplate_eq_after held other, fun hheld hfails => ?_⟩
  have hworld : rendered.2.world = e.world := e.renderPage_world page context
  have hget : rendered.2.get? name = e.get? name := by
    simp only [get?, registry, hworld]
  obtain ⟨hnone, hreport⟩ := rendered.2.diagnose_misspelled first name source x
  rw [hget] at hnone hreport
  refine ⟨hnone, ?_⟩
  obtain ⟨t, ht, hrender⟩ : ∃ t, opened.1 = .ok t ∧
      (opened.2.renderTemplate t context).1 = .error (.error err) := by
    have hpage := e.renderPage_eq page context
    rcases ho : opened with ⟨cause | t, e'⟩
    · have ho : e.openPage page = (.error cause, e') := ho
      simp [rendered, hpage, ho, err] at hfails
    · have ho : e.openPage page = (.ok t, e') := ho
      simp only [rendered, hpage, ho] at hfails
      exact ⟨t, rfl, hfails⟩
  have heffective : opened.2.effective = e.effective := e.openPage_effective page
  have hnamed : opened.2.effective.Named := heffective ▸ named_after settings room ops
  refine ⟨t, ht, renderTemplate_blames_ran hnamed hrender, fun u hran hx => ?_⟩
  obtain ⟨before, behind, text, hops, hfrom⟩ : ∃ before behind text, ops = before ++ behind ∧
      start.CompiledFrom before behind name text u := by
    obtain ⟨hname, rfl⟩ | ⟨m, -, hm, hu⟩ := hran
    · exact exists_compiled_from_of_openPage settings room hheld ht hname.symm
    · cases hm
      rw [heffective] at hu
      exact exists_compiled_from settings room hu
  refine ⟨before, behind, text, hops, hfrom, fun d hd hshown => ?_⟩
  obtain ⟨r, hr, hname, hspan, hsource⟩ := hreport d hd hshown
  have hafter : e = (start.after before).after behind := by
    simp only [e, hops, after, List.foldl_append]
  have hnow := hsource
  rw [hafter] at hnow
  exact ⟨r, hr, hname, hspan, hsource, fun across => r.drawnOver across,
    get?_after_iff _ hfrom.registered hnow, fun htext => hx.marks hfrom.compiles htext hspan⟩

theorem report_marks_token :
    let start := ofSettings {} 0
    let e := start.set "p" "ok $\x7b)\x7d"
    let x : Expr.SyntaxError := ⟨⟨5, 6⟩, some (.symbol .parenClose), Expr.State.start.expected⟩
    let err : Error := .render (.expression (some "p") ")" x)
    let rendered := e.render "p" (.object [])
    rendered.1 = .error (.error err) ∧
      ∃ r : Report, rendered.2.diagnose "p" err = some (.located r) ∧
        r.source = "ok $\x7b)\x7d" ∧ r.Marks ")" (some (.symbol .parenClose)) ∧
        ∀ across, r.HasHeading across 1 6 ∧ r.Shows across ⟨0, 5, "ok $\x7b)\x7d".toList⟩ := by
  intro start e x err rendered
  have hfails : rendered.1 = .error (.error err) := by decide +kernel
  have hget : e.get? "p" = some "ok $\x7b)\x7d" := rfl
  obtain ⟨hnone, t, -, ⟨u, hran, hu⟩, hdrawn⟩ :=
    (diagnose_drawn {} 0 [.set "p" "ok $\x7b)\x7d"] (.named "p") (.object []) "p" "p" ")" x).2
      (by simp) hfails
  obtain ⟨before, behind, text, hops, hfrom, hreport⟩ := hdrawn u hran hu
  cases hd : rendered.2.diagnose "p" err with
  | none => exact absurd (hget.symm.trans (hnone.1 hd)) (by simp)
  | some d =>
    have hshown : d ≠ .aborted := by
      rintro rfl
      have hlocation : err.location? "p" = some ("p", ⟨5, 6⟩) := rfl
      have hget' : rendered.2.get? "p" = some "ok $\x7b)\x7d" := by decide +kernel
      exact absurd ((rendered.2.diagnose_aborted_iff "p" hlocation hget').1 hd) (by decide)
    obtain ⟨r, rfl, -, hspan, hsource, hover, hiff, hmarks⟩ := hreport d hd hshown
    have hr : r.source = "ok $\x7b)\x7d" := Option.some.inj (hsource.symm.trans hget)
    have hplace : place? r.source.toList r.span.start = some ⟨0, 5, "ok $\x7b)\x7d".toList⟩ := by
      rw [hr, hspan]
      decide
    have hline : r.stopColumn ⟨0, 5, "ok $\x7b)\x7d".toList⟩ ≤ "ok $\x7b)\x7d".toList.length := by
      rw [Report.stopColumn, hspan]
      decide
    have hin (across : Report → List String) := (hover across).in_line hplace hline
    cases before with
    | nil => cases hfrom.registered
    | cons op before =>
      obtain ⟨rfl, rfl, rfl⟩ : .set "p" "ok $\x7b)\x7d" = op ∧ before = [] ∧ behind = [] := by
        simpa using hops
      exact ⟨hfails, r, rfl, hr, hmarks (hiff.2 (by simp [lastText])),
        hin⟩

/-- The template in the store is older than the text that is registered: the report is drawn over a text
that has nothing to do with the error. -/
theorem report_over_later_text :
    let e := (ofSettings {} 0).after
      [.set "p" "ok $\x7b)\x7d", .ask (.render "p" (.object [])), .set "p" "all is well"]
    let x : Expr.SyntaxError := ⟨⟨5, 6⟩, some (.symbol .parenClose), Expr.State.start.expected⟩
    let err : Error := .render (.expression (some "p") ")" x)
    let rendered := e.render "p" (.object [])
    rendered.1 = .error (.error err) ∧
      (∃ c, e.store.find? "p" = some c ∧
        Template.compile (some "p") "ok $\x7b)\x7d" = .ok c.template) ∧
      ∃ r : Report, rendered.2.diagnose "p" err = some (.located r) ∧ r.source = "all is well" ∧
        (∀ across, r.Shows across ⟨0, 5, "all is well".toList⟩) ∧
        ¬ r.Marks ")" (some (.symbol .parenClose)) := by
  intro e x err rendered
  have hfails : rendered.1 = .error (.error err) := by decide +kernel
  have hcached : e.isCached "p" := by decide +kernel
  obtain ⟨c, hc⟩ := Option.isSome_iff_exists.1 hcached
  have hrun : ((Operation.ask (.render "p" (.object []))).run
      ((ofSettings {} 0).set "p" "ok $\x7b)\x7d")).store.find? "p" = some c := hc
  obtain ⟨text, htext, hcompile⟩ := Operation.run_source (by simp) hrun rfl
  obtain rfl : "ok $\x7b)\x7d" = text := Option.some.inj htext
  have hlocation : err.location? "p" = some ("p", ⟨5, 6⟩) := rfl
  have hget : rendered.2.get? "p" = some "all is well" := by decide +kernel
  obtain ⟨message, label, hd⟩ := rendered.2.diagnose_of_location? "p" hlocation hget
  have hle : (⟨5, 6⟩ : Span).start ≤ (⟨5, 6⟩ : Span).stop := by decide
  rw [Diagnostic.ofSpan_of_le hle] at hd
  have hplace : place? "all is well".toList 5 = some ⟨0, 5, "all is well".toList⟩ := by decide
  have hline : 5 + (6 - 5) ≤ "all is well".toList.length := by decide
  refine ⟨hfails, ⟨c, hc, hcompile⟩, _, hd, rfl, fun across => ?_, ?_⟩
  · exact (Report.drawnOver across _).line _ hplace hline
  · rintro ⟨offset, ⟨before, behind, htext, -⟩, -⟩
    have hmem : ')' ∈ "all is well".toList := by
      rw [show "all is well".toList = _ from htext]
      simp
    exact absurd hmem (by decide)

end Engine

end Stencil
