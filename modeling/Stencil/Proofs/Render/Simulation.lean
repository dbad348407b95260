import Stencil.Engine.Render
import Stencil.Proofs.Program.Likeness
set_option autoImplicit false

/-!
# Renders side by side

One computation follows another if from related states both end alike, in related states again. What
a render does follows what another does as soon as the expressions and the includes do, and these do as
soon as the loads do. Main statements: `Simulation.follows_allAlike`, on two trees with related
expressions, and `Simulation.follows_render`.
-/

namespace Stencil

namespace Run

variable {σ α β : Type}

theorem exec_pure (a : α) (s : σ) : (pure a : Run σ α).exec s = (.ok a, s) := rfl

theorem exec_fail (e : Error) (s : σ) : (fail e : Run σ α).exec s = (.error (.error e), s) := rfl

theorem exec_bind (m : Run σ α) (f : α → Run σ β) (s : σ) :
    (m >>= f).exec s =
      match m.exec s with
      | (.ok a, s) => (f a).exec s
      | (.error h, s) => (.error h, s) := by
  have hbind : (m >>= f).exec s = ExceptT.bindCont f (m.exec s).1 (m.exec s).2 := rfl
  rw [hbind]
  obtain ⟨a | a, t⟩ := m.exec s <;> rfl

end Run

/-- Which states stand for each other. After a halt that is excused nothing more is asked; any other
halt has its counterpart. -/
structure Simulation (σ τ : Type) where
  states : σ → τ → Prop
  excused : Halt → Prop
  halts : Halt → Halt → Prop
  halts_self : ∀ h, halts h h

namespace Simulation

variable {σ τ α β : Type}

def Answers (S : Simulation σ τ) : Except Halt α × σ → Except Halt α × τ → Prop
  | (.ok a, s), (.ok b, t) => a = b ∧ S.states s t
  | (.error h, s), (.error k, t) => S.excused h ∨ (S.halts h k ∧ S.states s t)
  | (.error h, _), (.ok _, _) => S.excused h
  | (.ok _, _), (.error _, _) => False

def Follows (S : Simulation σ τ) (m : Run σ α) (n : Run τ α) : Prop :=
  ∀ s t, S.states s t → S.Answers (m.exec s) (n.exec t)

def exact (states : σ → τ → Prop) : Simulation σ τ := ⟨states, fun _ => False, Eq, fun _ => rfl⟩

theorem answers_exact {states : σ → τ → Prop} {x : Except Halt α × σ} {y : Except Halt α × τ} :
    (exact states).Answers x y ↔ x.1 = y.1 ∧ states x.2 y.2 := by
  obtain ⟨a | a, s⟩ := x <;> obtain ⟨b | b, t⟩ := y <;> simp [Answers, exact]

/-- A computation and one that does the same from the same state, as long as the first does not halt
with an excuse. -/
def excusing (excused : Halt → Prop) : Simulation σ σ := ⟨Eq, excused, Eq, fun _ => rfl⟩

variable {S : Simulation σ τ}

theorem Answers.unexcused {x : Except Halt α × σ} {y : Except Halt α × τ} (h : S.Answers x y)
    (hx : ∀ k, x.1 = .error k → ¬ S.excused k) :
    S.states x.2 y.2 ∧
      ((∃ a, x.1 = .ok a ∧ y.1 = .ok a) ∨
        ∃ k l, x.1 = .error k ∧ y.1 = .error l ∧ S.halts k l) := by
  rcases x with ⟨k | a, s⟩ <;> rcases y with ⟨l | b, t⟩
  · obtain hk | ⟨hk, hs⟩ := h
    · exact absurd hk (hx k rfl)
    · exact ⟨hs, .inr ⟨k, l, rfl, rfl, hk⟩⟩
  · exact absurd h (hx k rfl)
  · exact h.elim
  · obtain ⟨rfl, hs⟩ := h
    exact ⟨hs, .inl ⟨a, rfl, rfl⟩⟩

theorem Answers.mapError_eq {f : Halt → Halt} {x : Except Halt α × σ} {y : Except Halt α × τ}
    (h : S.Answers x y) (hf : ∀ k l, S.halts k l → f k = f l)
    (hx : ∀ k, x.1 = .error k → ¬ S.excused k) : x.1.mapError f = y.1.mapError f := by
  obtain ⟨-, ⟨a, ha, hb⟩ | ⟨k, l, hk, hl, hkl⟩⟩ := h.unexcused hx
  · rw [ha, hb]
  · rw [hk, hl]
    exact congrArg Except.error (hf k l hkl)

theorem eq_of_answers_excusing {excused : Halt → Prop} {x y : Except Halt α × σ}
    (h : (excusing excused).Answers x y) (hx : ∀ k, x.1 = .error k → ¬ excused k) : y = x := by
  obtain ⟨hstates, ⟨a, ha, hb⟩ | ⟨k, l, hk, hl, hkl⟩⟩ := h.unexcused hx
  · exact Prod.ext (hb.trans ha.symm) hstates.symm
  · obtain rfl : k = l := hkl
    exact Prod.ext (hl.trans hk.symm) hstates.symm

theorem follows_self {excused : Halt → Prop} (m : Run σ α) : (excusing excused).Follows m m := by
  rintro s t rfl
  rcases m.exec s with ⟨k | a, s'⟩
  · exact .inr ⟨rfl, rfl⟩
  · exact ⟨rfl, rfl⟩

theorem follows_pure (a : α) : S.Follows (pure a) (pure a) := fun _ _ h => ⟨rfl, h⟩

theorem follows_throw (h : Halt) : S.Follows (throw h : Run σ α) (throw h) :=
  fun _ _ hs => .inr ⟨S.halts_self h, hs⟩

theorem follows_of_excused {h : Halt} (hh : S.excused h) (n : Run τ α) :
    S.Follows (throw h) n := by
  intro s t _
  have hs : (throw h : Run σ α).exec s = (.error h, s) := rfl
  rw [hs]
  rcases n.exec t with ⟨k | b, u⟩
  · exact .inl hh
  · exact hh

theorem follows_fail (e : Error) : S.Follows (Run.fail e : Run σ α) (Run.fail e) :=
  follows_throw _

theorem follows_ofEval (x : Except RenderError α) : S.Follows (Run.ofEval x) (Run.ofEval x) := by
  cases x with
  | ok v => exact follows_pure v
  | error e => exact follows_fail _

theorem Follows.bind {m : Run σ α} {n : Run τ α} {f : α → Run σ β} {g : α → Run τ β}
    (h : S.Follows m n) (hf : ∀ a, S.Follows (f a) (g a)) : S.Follows (m >>= f) (n >>= g) := by
  intro s t hs
  have hm := h s t hs
  rw [Run.exec_bind, Run.exec_bind]
  generalize m.exec s = x at hm
  generalize n.exec t = y at hm
  rcases x with ⟨h | a, s'⟩ <;> rcases y with ⟨k | b, t'⟩
  · exact hm
  · -- The first has halted, with an excuse; the second may end as it likes.
    have hm : S.excused h := hm
    dsimp only
    rcases (g b).exec t' with ⟨k | c, u⟩
    · exact .inl hm
    · exact hm
  · exact hm.elim
  · obtain ⟨rfl, hs'⟩ := hm
    exact hf a s' t' hs'

theorem follows_concat {f : α → Run σ String} {g : α → Run τ String}
    (h : ∀ a, S.Follows (f a) (g a)) (xs : List α) :
    S.Follows (Run.concat f xs) (Run.concat g xs) := by
  induction xs with
  | nil => exact follows_pure ""
  | cons x xs ih => exact (h x).bind fun s => ih.bind fun t => follows_pure (s ++ t)

structure RenderersOn (S : Simulation σ τ) (R : Expression → Expression → Prop) (r : Renderer σ)
    (q : Renderer τ) : Prop where
  eval : ∀ scope x y, R x y → S.Follows (r.eval scope x) (q.eval scope y)
  embed : ∀ path context, S.Follows (r.embed path context) (q.embed path context)

structure Renderers (S : Simulation σ τ) (r : Renderer σ) (q : Renderer τ) : Prop where
  eval : ∀ scope e, S.Follows (r.eval scope e) (q.eval scope e)
  embed : ∀ path context, S.Follows (r.embed path context) (q.embed path context)

section

variable {R : Expression → Expression → Prop} {r : Renderer σ} {q : Renderer τ}

mutual

theorem follows_alike (h : S.RenderersOn R r q) (scope : Scope) {i j : Instruction}
    (hij : i.Alike R j) : S.Follows (r.run scope i) (q.run scope j) := by
  cases hij with
  | literal text => exact follows_pure text
  | print hxy => exact (h.eval scope _ _ hxy).bind fun v => follows_ofEval v.print
  | branch has => exact follows_armsAlike h scope has
  | loop index value hxy his =>
    refine (h.eval scope _ _ hxy).bind fun v => ?_
    cases v.pairs? with
    | none => exact follows_fail _
    | some ps =>
      exact follows_concat (fun p => follows_allAlike h (scope.push ⟨index, p.1, value, p.2⟩) his) ps
  | embed path hxy =>
    cases hxy with
    | none => exact h.embed path (.object [])
    | some hxy => exact (h.eval scope _ _ hxy).bind fun v => h.embed path v

theorem follows_allAlike (h : S.RenderersOn R r q) (scope : Scope) {is js : List Instruction}
    (his : Instruction.AllAlike R is js) : S.Follows (r.runAll scope is) (q.runAll scope js) := by
  cases his with
  | nil => exact follows_pure ""
  | cons hij his =>
    exact (follows_alike h scope hij).bind fun s =>
      (follows_allAlike h scope his).bind fun t => follows_pure (s ++ t)

theorem follows_armsAlike (h : S.RenderersOn R r q) (scope : Scope) {as bs : List Arm}
    (has : Arm.AllAlike R as bs) : S.Follows (r.runArms scope as) (q.runArms scope bs) := by
  cases has with
  | nil => exact follows_pure ""
  | cons hxy his has =>
    cases hxy with
    | none => exact follows_allAlike h scope his
    | some hxy =>
      refine (h.eval scope _ _ hxy).bind fun v => ?_
      cases v.isTruthy with
      | true => exact follows_allAlike h scope his
      | false => exact follows_armsAlike h scope has

end

theorem Renderers.on (h : S.Renderers r q) : S.RenderersOn Eq r q :=
  ⟨fun scope x _ hxy => hxy ▸ h.eval scope x, h.embed⟩

theorem follows_runAll (h : S.Renderers r q) (scope : Scope) (is : List Instruction) :
    S.Follows (r.runAll scope is) (q.runAll scope is) :=
  follows_allAlike h.on scope (Instruction.allAlike_refl (fun _ => rfl) is)

end

theorem follows_renderWith {t : Template} {st st' : Setting} {f : String → Value → Run σ String}
    {g : String → Value → Run τ String} (h : S.Renderers ⟨t.name, st, f⟩ ⟨t.name, st', g⟩)
    (context : Value) : S.Follows (t.renderWith st f context) (t.renderWith st' g context) := by
  cases context with
  | object fields => exact follows_runAll h _ _
  | _ => exact follows_fail _

structure Hosts (S : Simulation σ τ) (h : Host σ) (k : Host τ) : Prop where
  eval : ∀ name scope (e : Expression),
    S.Follows (Run.ofEval (e.eval name h.setting scope)) (Run.ofEval (e.eval name k.setting scope))
  limit : h.settings.maxIncludeDepth = k.settings.maxIncludeDepth
  load : ∀ path, S.Follows (h.load path) (k.load path)

section

variable {h : Host σ} {k : Host τ}

theorem Hosts.renderers (hs : S.Hosts h k) {f : String → Value → Run σ String}
    {g : String → Value → Run τ String} (hf : ∀ path context, S.Follows (f path context)
    (g path context)) (name : Option String) :
    S.Renderers ⟨name, h.setting, f⟩ ⟨name, k.setting, g⟩ :=
  ⟨hs.eval name, hf⟩

/-- By induction on the levels: what an include renders includes at one level less. -/
theorem follows_embedAt (hs : S.Hosts h k) (levels depth : Nat) (path : String) (context : Value) :
    S.Follows (h.embedAt levels depth path context) (k.embedAt levels depth path context) := by
  induction levels generalizing depth path context with
  | zero =>
    simp only [Host.embedAt, Settings.exceeded?, hs.limit]
    cases k.settings.maxIncludeDepth.filter fun limit => limit < depth with
    | some limit => exact follows_fail _
    | none => exact follows_throw _
  | succ levels ih =>
    simp only [Host.embedAt, Settings.exceeded?, hs.limit]
    cases k.settings.maxIncludeDepth.filter fun limit => limit < depth with
    | some limit => exact follows_fail _
    | none =>
      refine (hs.load path).bind fun t => ?_
      exact follows_renderWith (hs.renderers (ih (depth + 1)) t.name) context

theorem follows_render (hs : S.Hosts h k) (levels : Nat) (t : Template) (context : Value) :
    S.Follows (h.render levels t context) (k.render levels t context) :=
  follows_renderWith (hs.renderers (follows_embedAt hs levels 1) t.name) context

end

end Simulation

end Stencil
