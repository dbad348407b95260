import Stencil.Engine.Composition
import Stencil.Proofs.Engine.Calls
set_option autoImplicit false

/-!
# Leaves of compositions

Once its resolvers have looked at the context, a composition comes down to a row of texts and templates.
How they are grouped makes no difference to the output, nor to the error that ends it. Main statements:
`Fragment.render_eq_concat`, by induction on the fragment, and `Engine.renderFragment_leaves`.
-/

namespace Stencil

inductive Leaf where
  | text (s : String)
  | template (t : Template)

mutual

def Fragment.leaves (context : Value) : Fragment → List Leaf
  | .template t => [.template t]
  | .list items => Fragment.leavesAll context items
  | .composed parts => Part.leavesAll context parts
  | .print resolve => Printed.leaves context (resolve context)

def Fragment.leavesAll (context : Value) : List Fragment → List Leaf
  | [] => []
  | f :: fs => f.leaves context ++ Fragment.leavesAll context fs

def Part.leaves (context : Value) : Part → List Leaf
  | .text s => [.text s]
  | .slot f => f.leaves context

def Part.leavesAll (context : Value) : List Part → List Leaf
  | [] => []
  | p :: ps => p.leaves context ++ Part.leavesAll context ps

def Printed.leaves (context : Value) : Printed → List Leaf
  | .text s => [.text s]
  | .nested f => f.leaves context

end

def Leaf.render {σ : Type} (render : Template → Run σ String) : Leaf → Run σ String
  | .text s => pure s
  | .template t => render t

namespace Run

variable {σ α : Type} (f : α → Run σ String)

theorem concat_one (x : α) : concat f [x] = f x := by
  simp only [concat, pure_bind, String.append_empty, bind_pure]

theorem concat_append (xs ys : List α) :
    concat f (xs ++ ys) = do
      let s ← concat f xs
      let t ← concat f ys
      return s ++ t := by
  induction xs with
  | nil => simp only [List.nil_append, concat, pure_bind, String.empty_append, bind_pure]
  | cons x xs ih =>
    simp only [List.cons_append, concat, ih, bind_assoc, pure_bind, String.append_assoc]

end Run

section

variable {σ : Type} (render : Template → Run σ String) (context : Value)

mutual

theorem Fragment.render_eq_concat : ∀ f : Fragment,
    f.render render context = Run.concat (Leaf.render render) (f.leaves context)
  | .template t => (Run.concat_one (Leaf.render render) (.template t)).symm
  | .list items => Fragment.renderAll_eq_concat items
  | .composed parts => Part.renderAll_eq_concat parts
  | .print resolve => Printed.render_eq_concat (resolve context)

theorem Fragment.renderAll_eq_concat : ∀ fs : List Fragment,
    Fragment.renderAll render context fs =
      Run.concat (Leaf.render render) (Fragment.leavesAll context fs)
  | [] => rfl
  | f :: fs => by
    rw [Fragment.renderAll, Fragment.leavesAll, Run.concat_append, f.render_eq_concat,
      Fragment.renderAll_eq_concat fs]

theorem Part.render_eq_concat : ∀ p : Part,
    p.render render context = Run.concat (Leaf.render render) (p.leaves context)
  | .text s => (Run.concat_one (Leaf.render render) (.text s)).symm
  | .slot f => f.render_eq_concat

theorem Part.renderAll_eq_concat : ∀ ps : List Part,
    Part.renderAll render context ps =
      Run.concat (Leaf.render render) (Part.leavesAll context ps)
  | [] => rfl
  | p :: ps => by
    rw [Part.renderAll, Part.leavesAll, Run.concat_append, p.render_eq_concat,
      Part.renderAll_eq_concat ps]

theorem Printed.render_eq_concat : ∀ p : Printed,
    p.render render context = Run.concat (Leaf.render render) (p.leaves context)
  | .text s => (Run.concat_one (Leaf.render render) (.text s)).symm
  | .nested f => f.render_eq_concat

end

end

mutual

/-- The second fragment is the first with empty lists and empty compositions put in, at any places. -/
inductive Fragment.Padded : Fragment → Fragment → Prop where
  | template (t : Template) : Fragment.Padded (.template t) (.template t)
  | list {fs gs : List Fragment} : Fragment.AllPadded fs gs → Fragment.Padded (.list fs) (.list gs)
  | composed {ps qs : List Part} :
    Part.AllPadded ps qs → Fragment.Padded (.composed ps) (.composed qs)
  | print {resolve resolve' : Value → Printed} :
    (∀ context, Printed.Padded (resolve context) (resolve' context)) →
    Fragment.Padded (.print resolve) (.print resolve')

inductive Fragment.AllPadded : List Fragment → List Fragment → Prop where
  | nil : Fragment.AllPadded [] []
  | cons {f g : Fragment} {fs gs : List Fragment} :
    Fragment.Padded f g → Fragment.AllPadded fs gs → Fragment.AllPadded (f :: fs) (g :: gs)
  | list {fs gs : List Fragment} :
    Fragment.AllPadded fs gs → Fragment.AllPadded fs (.list [] :: gs)
  | composed {fs gs : List Fragment} :
    Fragment.AllPadded fs gs → Fragment.AllPadded fs (.composed [] :: gs)

inductive Part.AllPadded : List Part → List Part → Prop where
  | nil : Part.AllPadded [] []
  | text (s : String) {ps qs : List Part} :
    Part.AllPadded ps qs → Part.AllPadded (.text s :: ps) (.text s :: qs)
  | slot {f g : Fragment} {ps qs : List Part} :
    Fragment.Padded f g → Part.AllPadded ps qs → Part.AllPadded (.slot f :: ps) (.slot g :: qs)
  | list {ps qs : List Part} :
    Part.AllPadded ps qs → Part.AllPadded ps (.slot (.list []) :: qs)
  | composed {ps qs : List Part} :
    Part.AllPadded ps qs → Part.AllPadded ps (.slot (.composed []) :: qs)

inductive Printed.Padded : Printed → Printed → Prop where
  | text (s : String) : Printed.Padded (.text s) (.text s)
  | nested {f g : Fragment} : Fragment.Padded f g → Printed.Padded (.nested f) (.nested g)

end

section

variable {context : Value}

mutual

theorem Fragment.Padded.leaves_eq {f g : Fragment} :
    Fragment.Padded f g → g.leaves context = f.leaves context
  | .template _ => rfl
  | .list h => h.leaves_eq
  | .composed h => h.leaves_eq
  | .print h => (h context).leaves_eq

theorem Fragment.AllPadded.leaves_eq {fs gs : List Fragment} :
    Fragment.AllPadded fs gs → Fragment.leavesAll context gs = Fragment.leavesAll context fs
  | .nil => rfl
  | .cons hf hfs => by
    rw [Fragment.leavesAll, Fragment.leavesAll, hf.leaves_eq, hfs.leaves_eq]
  | .list h => h.leaves_eq
  | .composed h => h.leaves_eq

theorem Part.AllPadded.leaves_eq {ps qs : List Part} :
    Part.AllPadded ps qs → Part.leavesAll context qs = Part.leavesAll context ps
  | .nil => rfl
  | .text s h => by rw [Part.leavesAll, Part.leavesAll, h.leaves_eq]
  | .slot hf h => by
    rw [Part.leavesAll, Part.leavesAll, Part.leaves, Part.leaves, hf.leaves_eq, h.leaves_eq]
  | .list h => h.leaves_eq
  | .composed h => h.leaves_eq

theorem Printed.Padded.leaves_eq {p q : Printed} :
    Printed.Padded p q → q.leaves context = p.leaves context
  | .text _ => rfl
  | .nested h => h.leaves_eq

end

end

def joined : List (Except Halt String) → Except Halt String
  | [] => .ok ""
  | .ok s :: xs => (joined xs).map (s ++ ·)
  | .error h :: _ => .error h

theorem joined_eq_ok_iff {xs : List (Except Halt String)} {text : String} :
    joined xs = .ok text ↔ ∃ texts : List String, xs = texts.map .ok ∧ text = String.join texts := by
  induction xs generalizing text with
  | nil => simp [joined, eq_comm]
  | cons x xs ih =>
    cases x with
    | error h =>
      refine iff_of_false (by simp [joined]) ?_
      rintro ⟨_ | ⟨t, texts⟩, hxs, -⟩ <;> cases hxs
    | ok s =>
      rw [joined]
      constructor
      · intro h
        cases hj : joined xs with
        | error k =>
          rw [hj] at h
          cases h
        | ok t =>
          rw [hj] at h
          cases h
          obtain ⟨texts, rfl, rfl⟩ := ih.1 hj
          exact ⟨s :: texts, rfl, String.join_cons.symm⟩
      · rintro ⟨_ | ⟨t, texts⟩, hxs, rfl⟩
        · cases hxs
        · obtain ⟨ht, hrest⟩ := List.cons.inj hxs
          cases ht
          rw [ih.2 ⟨texts, hrest, rfl⟩, String.join_cons]
          rfl

theorem joined_eq_error_iff {xs : List (Except Halt String)} {h : Halt} :
    joined xs = .error h ↔
      ∃ (texts : List String) (behind : List (Except Halt String)),
        xs = texts.map .ok ++ .error h :: behind := by
  induction xs with
  | nil => simp [joined]
  | cons x xs ih =>
    cases x with
    | error k =>
      constructor
      · rintro ⟨⟩
        exact ⟨[], xs, rfl⟩
      · rintro ⟨_ | ⟨t, texts⟩, behind, hxs⟩ <;> cases hxs
        rfl
    | ok s =>
      have hmap : joined (.ok s :: xs) = .error h ↔ joined xs = .error h := by
        rw [joined]
        cases joined xs <;> simp [Except.map]
      rw [hmap, ih]
      constructor
      · rintro ⟨texts, behind, rfl⟩
        exact ⟨s :: texts, behind, rfl⟩
      · rintro ⟨_ | ⟨t, texts⟩, behind, hxs⟩
        · cases hxs
        · obtain ⟨-, hrest⟩ := List.cons.inj hxs
          exact ⟨texts, behind, hrest⟩

theorem map_eq_ok_iff {α : Type} {f : α → Except Halt String} {xs : List α} :
    (∃ texts : List String, xs.map f = texts.map .ok) ↔ ∀ x ∈ xs, ∃ s, f x = .ok s := by
  induction xs with
  | nil => exact iff_of_true ⟨[], rfl⟩ (List.forall_mem_nil _)
  | cons x xs ih =>
    rw [List.forall_mem_cons, ← ih]
    constructor
    · rintro ⟨_ | ⟨t, texts⟩, hxs⟩
      · cases hxs
      · obtain ⟨hx, hrest⟩ := List.cons.inj hxs
        exact ⟨⟨t, hx⟩, texts, hrest⟩
    · rintro ⟨⟨s, hx⟩, texts, hrest⟩
      exact ⟨s :: texts, by rw [List.map_cons, List.map_cons, hx, hrest]⟩

namespace Engine

def renderFragment (e : Engine) (f : Fragment) (context : Value) : Except Halt String × Engine :=
  e.exec (f.render (fun t => e.world.render t context) context)

def renderLeaf (e : Engine) (context : Value) : Leaf → Except Halt String × Engine
  | .text s => (.ok s, e)
  | .template t => e.renderTemplate t context

/-- Renders a row of leaves up to the first that fails, each with the engine as the one before has left
it. -/
def renderLeaves (e : Engine) (context : Value) : List Leaf → Except Halt String × Engine
  | [] => (.ok "", e)
  | l :: ls =>
    match e.renderLeaf context l with
    | (.error h, e) => (.error h, e)
    | (.ok s, e) =>
      let (result, e) := e.renderLeaves context ls
      (result.map (s ++ ·), e)

theorem renderLeaf_eq (e : Engine) (context : Value) (l : Leaf) :
    e.renderLeaf context l = e.exec (l.render fun t => e.world.render t context) := by
  cases l <;> rfl

theorem exec_concat (w : World) (context : Value) (ls : List Leaf) (s : Store) :
    (⟨w, s⟩ : Engine).exec (Run.concat (Leaf.render fun t => w.render t context) ls) =
      (⟨w, s⟩ : Engine).renderLeaves context ls := by
  induction ls generalizing s with
  | nil => rfl
  | cons l ls ih =>
    rw [renderLeaves, renderLeaf_eq]
    simp only [exec, Run.concat, Run.exec_bind] at ih ⊢
    rcases (l.render fun t => w.render t context).exec s with ⟨h | a, s'⟩
    · rfl
    · dsimp only
      rw [← ih s']
      dsimp only
      rcases (Run.concat (Leaf.render fun t => w.render t context) ls).exec s' with ⟨h | b, u⟩ <;> rfl

theorem renderFragment_eq (e : Engine) (f : Fragment) (context : Value) :
    e.renderFragment f context = e.renderLeaves context (f.leaves context) := by
  rw [renderFragment, Fragment.render_eq_concat]
  exact exec_concat e.world context (f.leaves context) e.store

theorem renderLeaf_filled (e : Engine) (context : Value) (l : Leaf) :
    ∃ names, e.Filled names (e.renderLeaf context l).2 := by
  cases l with
  | text s => exact ⟨[], e.filled_nil⟩
  | template t => exact ⟨_, (e.renderTemplate_filled t context).2⟩

/-- What earlier leaves have loaded makes no difference to a leaf. -/
theorem Filled.renderLeaf {e e' : Engine} {names : List String} (h : e.Filled names e')
    (context : Value) (l : Leaf) : (e'.renderLeaf context l).1 = (e.renderLeaf context l).1 := by
  cases l with
  | text s => rfl
  | template t =>
    have houtcome := h.outcome context (.ok t)
    simp only [Engine.outcome] at houtcome
    simp only [Engine.renderLeaf, (Engine.renderTemplate_filled _ t context).1, houtcome]

theorem renderLeaves_eq_joined (e : Engine) (context : Value) (ls : List Leaf) :
    (e.renderLeaves context ls).1 = joined (ls.map fun l => (e.renderLeaf context l).1) := by
  induction ls generalizing e with
  | nil => rfl
  | cons l ls ih =>
    obtain ⟨names, hfilled⟩ := e.renderLeaf_filled context l
    rw [renderLeaves, List.map_cons]
    rcases hl : e.renderLeaf context l with ⟨h | s, e'⟩
    · rfl
    · rw [hl] at hfilled
      simp only [ih e', hfilled.renderLeaf, joined]

theorem renderLeaves_ok_iff (e : Engine) (context : Value) (ls : List Leaf) (text : String) :
    (e.renderLeaves context ls).1 = .ok text ↔ ∃ texts : List String,
      ls.map (fun l => (e.renderLeaf context l).1) = texts.map .ok ∧ text = String.join texts := by
  rw [renderLeaves_eq_joined, joined_eq_ok_iff]

theorem renderLeaves_error_iff (e : Engine) (context : Value) (ls : List Leaf) (h : Halt) :
    (e.renderLeaves context ls).1 = .error h ↔ ∃ before l behind, ls = before ++ l :: behind ∧
      (∀ l' ∈ before, ∃ s, (e.renderLeaf context l').1 = .ok s) ∧
      (e.renderLeaf context l).1 = .error h := by
  rw [renderLeaves_eq_joined, joined_eq_error_iff]
  constructor
  · rintro ⟨texts, behind, hmap⟩
    obtain ⟨before, rest, hls, hbefore, hrest⟩ := List.map_eq_append_iff.1 hmap
    obtain ⟨l, behind, rfl, hl, -⟩ := List.map_eq_cons_iff.1 hrest
    exact ⟨before, l, behind, hls, map_eq_ok_iff.1 ⟨texts, hbefore⟩, hl⟩
  · rintro ⟨before, l, behind, rfl, hbefore, hl⟩
    obtain ⟨texts, htexts⟩ := map_eq_ok_iff.2 hbefore
    exact ⟨texts, behind.map _, by rw [List.map_append, htexts, List.map_cons, hl]⟩

/-- A fragment is rendered leaf by leaf, each with the engine as the one before has left it. It gives
the texts of all leaves in a row, or the error of the first that fails; each leaf ends as it would if it
came first. So what has the same leaves in other lists and compositions gives the same, and so does what
has further empty ones anywhere. -/
theorem renderFragment_leaves (e : Engine) (f : Fragment) (context : Value) :
    let result := e.renderFragment f context
    let leaves := f.leaves context
    let own (l : Leaf) := (e.renderLeaf context l).1
    (∀ parts, f = .composed parts → Composition.render parts e context = result) ∧
    result = e.renderLeaves context leaves ∧
    (∀ text, result.1 = .ok text ↔
      ∃ texts : List String, leaves.map own = texts.map .ok ∧ text = String.join texts) ∧
    (∀ h, result.1 = .error h ↔ ∃ before l behind, leaves = before ++ l :: behind ∧
      (∀ l' ∈ before, ∃ s, own l' = .ok s) ∧ own l = .error h) ∧
    (∀ g : Fragment, g.leaves context = leaves → e.renderFragment g context = result) ∧
    ∀ g, f.Padded g → e.renderFragment g context = result := by
  intro result leaves own
  have hresult : result = e.renderLeaves context leaves := e.renderFragment_eq f context
  have hsame (g : Fragment) (hg : g.leaves context = leaves) :
      e.renderFragment g context = result := by
    rw [hresult, renderFragment_eq, hg]
  refine ⟨?_, hresult, fun text => ?_, fun h => ?_, hsame, fun g hg => hsame g hg.leaves_eq⟩
  · rintro parts rfl
    rfl
  · rw [hresult]
    exact e.renderLeaves_ok_iff context leaves text
  · rw [hresult]
    exact e.renderLeaves_error_iff context leaves h

theorem third_leaf_fails :
    let row : Template := ⟨none, [.embed "row" none]⟩
    let name : Template := ⟨none, [.print ⟨"name", 2, .ok (.ident "name")⟩]⟩
    let e := empty.set "row" "text"
    let f : Fragment := .composed [.text "a", .slot (.list [.template row, .template name])]
    let g : Fragment := .list [.list [], .composed [.text "a"], .template row,
      .print fun _ => .nested (.composed [.slot (.template name)])]
    let g' : Fragment := .composed [.text "a", .slot (.composed []),
      .slot (.list [.template row, .list [], .template name])]
    let error : Halt := .error (.render (.undefinedVariable "name"))
    (e.renderFragment f (.object [])).1 = .error error ∧
      (e.renderFragment f (.object [])).2.isCached "row" ∧
      e.renderFragment g (.object []) = e.renderFragment f (.object []) ∧
      e.renderFragment g' (.object []) = e.renderFragment f (.object []) := by
  intro row name e f g g' error
  obtain ⟨-, hresult, -, herror, hsame, hpadded⟩ := renderFragment_leaves e f (.object [])
  have hg' : f.Padded g' := .composed (.text "a" (.composed (.slot
    (.list (.cons (.template row) (.list (.cons (.template name) .nil)))) .nil)))
  have hrow : (e.renderLeaf (.object []) (.template row)).1 = .ok "text" := by
    with_unfolding_all rfl
  have hname : (e.renderLeaf (.object []) (.template name)).1 = .error error := rfl
  refine ⟨(herror error).2 ⟨[.text "a", .template row], .template name, [], rfl, ?_, hname⟩, ?_,
    hsame g rfl, hpadded g' hg'⟩
  · exact List.forall_mem_cons.2 ⟨⟨"a", rfl⟩, List.forall_mem_singleton.2 ⟨"text", hrow⟩⟩
  · rw [hresult]
    decide +kernel

end Engine

end Stencil
