import Stencil.Proofs.Engine.Inlining
import Stencil.Proofs.Engine.Pages
set_option autoImplicit false

namespace Stencil

/-- How a render halts that may not include anything deeper. Without a limit it has no levels left. -/
def Halt.TooDeep : Option Nat → Halt → Prop
  | some limit, k => ∃ path, k = .error (.embed (.depthExceeded path limit))
  | none, k => k = .exhausted

theorem Settings.eq_some_of_exceeded? {s : Settings} {depth limit : Nat}
    (h : s.exceeded? depth = some limit) : s.maxIncludeDepth = some limit :=
  (Option.filter_eq_some_iff.1 h).1

namespace Simulation

variable {σ : Type} {h k : Host σ}

theorem follows_of_exceeded {depth limit : Nat} (hx : h.settings.exceeded? depth = some limit)
    (levels : Nat) (path : String) (context : Value) (m : Run σ String) :
    (excusing (Halt.TooDeep h.settings.maxIncludeDepth)).Follows
      (h.embedAt levels depth path context) m := by
  rw [h.embedAt_exceeded hx]
  refine follows_of_excused ?_ m
  rw [Settings.eq_some_of_exceeded? hx]
  exact ⟨path, rfl⟩

/-- By induction on the levels of the first host. It is the first to have none left, since each include
takes one from both, and while the second has one left its limit lies deeper. -/
theorem follows_embedAt_of_le (hsetting : h.setting = k.setting) (hload : h.load = k.load)
    {levels levels' depth : Nat} (hle : levels ≤ levels')
    (hh : ∀ limit ∈ h.settings.maxIncludeDepth, limit + 1 ≤ levels + depth)
    (hk : ∀ limit ∈ k.settings.maxIncludeDepth, levels' + depth ≤ limit + 1) (path : String)
    (context : Value) :
    (excusing (Halt.TooDeep h.settings.maxIncludeDepth)).Follows
      (h.embedAt levels depth path context) (k.embedAt levels' depth path context) := by
  induction levels generalizing levels' depth path context with
  | zero =>
    cases hx : h.settings.exceeded? depth with
    | some limit => exact follows_of_exceeded hx 0 path context _
    | none =>
      have hnone : h.settings.maxIncludeDepth = none := by
        have hdeep := (h.settings.exceeded?_eq_none_iff depth).1 hx
        cases hm : h.settings.maxIncludeDepth with
        | none => rfl
        | some limit =>
          have := hh limit hm
          have := hdeep limit hm
          omega
      simp only [Host.embedAt, hx]
      refine follows_of_excused ?_ _
      rw [hnone]
      rfl
  | succ levels ih =>
    obtain ⟨levels', rfl⟩ : ∃ n, levels' = n + 1 := ⟨levels' - 1, by omega⟩
    cases hx : h.settings.exceeded? depth with
    | some limit => exact follows_of_exceeded hx (levels + 1) path context _
    | none =>
      have hkx : k.settings.exceeded? depth = none := by
        rw [Settings.exceeded?_eq_none_iff]
        intro limit hm
        have := hk limit hm
        omega
      have hh' : ∀ limit ∈ h.settings.maxIncludeDepth, limit + 1 ≤ levels + (depth + 1) := by
        intro limit hm
        have := hh limit hm
        omega
      have hk' : ∀ limit ∈ k.settings.maxIncludeDepth, levels' + (depth + 1) ≤ limit + 1 := by
        intro limit hm
        have := hk limit hm
        omega
      simp only [Host.embedAt, hx, hkx, hload, hsetting]
      refine (follows_self (k.load path)).bind fun t => ?_
      have hrenderers : (excusing (Halt.TooDeep h.settings.maxIncludeDepth)).Renderers
          ⟨t.name, k.setting, h.embedAt levels (depth + 1)⟩
          ⟨t.name, k.setting, k.embedAt levels' (depth + 1)⟩ :=
        ⟨fun _ _ => follows_ofEval _, ih (Nat.le_of_succ_le_succ hle) hh' hk'⟩
      exact follows_renderWith hrenderers context

end Simulation

namespace World

def withLimit (w : World) (limit : Option Nat) : World :=
  { w with settings.maxIncludeDepth := limit }

theorem follows_render_of_le (w : World) {limit limit' : Option Nat}
    (h : (w.withLimit limit).levels ≤ (w.withLimit limit').levels) (t : Template) (context : Value) :
    (Simulation.excusing (Halt.TooDeep limit)).Follows ((w.withLimit limit).render t context)
      ((w.withLimit limit').render t context) := by
  have hlevels (l : Option Nat) :
      ∀ n ∈ (w.withLimit l).host.settings.maxIncludeDepth, (w.withLimit l).levels = n :=
    fun n hn => (w.withLimit l).levels_eq hn
  have hembed (path : String) (context : Value) : (Simulation.excusing (Halt.TooDeep limit)).Follows
      ((w.withLimit limit).host.embedAt (w.withLimit limit).levels 1 path context)
      ((w.withLimit limit').host.embedAt (w.withLimit limit').levels 1 path context) :=
    Simulation.follows_embedAt_of_le (h := (w.withLimit limit).host)
      (k := (w.withLimit limit').host) rfl rfl h
      (fun n hn => Nat.le_of_eq (by rw [hlevels limit n hn]))
      (fun n hn => Nat.le_of_eq (by rw [hlevels limit' n hn])) path context
  have hrenderers : (Simulation.excusing (Halt.TooDeep limit)).Renderers
      ⟨t.name, w.host.setting, (w.withLimit limit).host.embedAt (w.withLimit limit).levels 1⟩
      ⟨t.name, w.host.setting, (w.withLimit limit').host.embedAt (w.withLimit limit').levels 1⟩ :=
    ⟨fun _ _ => Simulation.follows_ofEval _, hembed⟩
  exact Simulation.follows_renderWith hrenderers context

end World

namespace Engine

def withLimit (e : Engine) (limit : Option Nat) : Engine := { e with world := e.world.withLimit limit }

theorem openPage_withLimit (e : Engine) (limit : Option Nat) (page : Page) :
    (e.withLimit limit).openPage page =
      ((e.openPage page).1, (e.openPage page).2.withLimit limit) := by
  cases page <;> rfl

theorem renderPage_of_le (e : Engine) (page : Page) (context : Value) {limit limit' : Option Nat}
    (h : (e.world.withLimit limit).levels ≤ (e.world.withLimit limit').levels)
    (hx : ∀ k, ((e.withLimit limit).renderPage page context).1 = .error k → ¬ k.TooDeep limit) :
    ((e.withLimit limit').renderPage page context).1 =
        ((e.withLimit limit).renderPage page context).1 ∧
      ((e.withLimit limit').renderPage page context).2.store =
        ((e.withLimit limit).renderPage page context).2.store := by
  have hworld := e.openPage_world page
  simp only [renderPage_eq, openPage_withLimit] at hx ⊢
  rcases ho : e.openPage page with ⟨cause | t, ⟨w, s⟩⟩
  · exact ⟨rfl, rfl⟩
  · rw [ho] at hworld
    obtain rfl : w = e.world := hworld
    simp only [ho] at hx
    have hfollows := e.world.follows_render_of_le h t context s s rfl
    have heq := Simulation.eq_of_answers_excusing hfollows hx
    have houtcome := congrArg Prod.fst heq
    have hstore := congrArg Prod.snd heq
    exact ⟨houtcome, hstore⟩

/-- A render that the limit does not stop ends alike under a looser limit and under none, with the same
text or the same error and with the same store; without a limit the engine only has to have room for as
many levels. What succeeds under the looser limit, or under none, gives the same text under the other
one or is stopped by it. -/
theorem looser_limit (e : Engine) (page : Page) (context : Value) (limit : Nat)
    (looser : Option Nat) (h : ∀ l ∈ looser, limit ≤ l) :
    let strict := (e.withLimit (some limit)).renderPage page context
    let loose := (e.withLimit looser).renderPage page context
    ((∀ path, strict.1 ≠ .error (.error (.embed (.depthExceeded path limit)))) →
      (loose.1 = strict.1 ∧ loose.2.store = strict.2.store) ∨
        (looser = none ∧ e.world.room < limit ∧ loose.1 = .error .exhausted)) ∧
    ∀ text, loose.1 = .ok text → strict.1 = .ok text ∨
      ∃ path, strict.1 = .error (.error (.embed (.depthExceeded path limit))) := by
  intro strict loose
  have hfirst : (∀ path, strict.1 ≠ .error (.error (.embed (.depthExceeded path limit)))) →
      (loose.1 = strict.1 ∧ loose.2.store = strict.2.store) ∨
        (looser = none ∧ e.world.room < limit ∧ loose.1 = .error .exhausted) := by
    intro hx
    by_cases hle : limit ≤ (e.world.withLimit looser).levels
    · refine .inl (e.renderPage_of_le page context hle ?_)
      rintro k hk ⟨path, rfl⟩
      exact hx path hk
    · -- There is no limit, so the engine has less room than the limit has levels.
      cases looser with
      | some l => exact absurd (h l rfl) hle
      | none =>
        have hroom : e.world.room < limit := Nat.lt_of_not_le hle
        by_cases hk : loose.1 = .error .exhausted
        · exact .inr ⟨rfl, hroom, hk⟩
        · have hlevels : (e.world.withLimit none).levels ≤ (e.world.withLimit (some limit)).levels :=
            Nat.le_of_lt hroom
          have hsame := e.renderPage_of_le page context hlevels fun k hk' hdeep => hk (hdeep ▸ hk')
          exact .inl ⟨hsame.1.symm, hsame.2.symm⟩
  refine ⟨hfirst, fun text htext => ?_⟩
  by_cases hx : ∃ path, strict.1 = .error (.error (.embed (.depthExceeded path limit)))
  · exact .inr hx
  · obtain ⟨hsame, -⟩ | ⟨-, -, hk⟩ := hfirst fun path hk => hx ⟨path, hk⟩
    · exact .inl (hsame ▸ htext)
    · rw [htext] at hk
      cases hk

/-- The second include is missing and lies at the limit: it is looked up and not found, and no other
limit comes before that. -/
theorem missing_include_at_limit :
    let row : Template := ⟨some "row", [.literal "- ", .embed "cell" none]⟩
    let page : Template := ⟨none, [.embed "row" none, .embed "row" none]⟩
    let e : Engine := ⟨⟨⟨[]⟩, [], {}, 0⟩, ⟨[("row", ⟨row, 0⟩)], 1⟩⟩
    let strict := (e.withLimit (some 2)).renderPage (.compiled page) (.object [])
    let loose := (e.withLimit (some 5)).renderPage (.compiled page) (.object [])
    strict.1 = .error (.error (.embed (.notFound "cell"))) ∧
      loose.1 = strict.1 ∧ loose.2.store = strict.2.store := by
  intro row page e strict loose
  have hstrict : strict.1 = .error (.error (.embed (.notFound "cell"))) := rfl
  have hlooser : ∀ l ∈ some 5, 2 ≤ l := by simp
  have hlimit := looser_limit e (.compiled page) (.object []) 2 (some 5) hlooser
  obtain hsame | ⟨hnone, -⟩ := hlimit.1 fun path hk => by
    rw [hstrict] at hk
    cases hk
  · exact ⟨hstrict, hsame⟩
  · cases hnone

end Engine

end Stencil
