set_option autoImplicit false

namespace Stencil.Entries

variable {α : Type}

def keys (es : List (String × α)) : List String := es.map Prod.fst

def get? (name : String) : List (String × α) → Option α
  | [] => none
  | (k, x) :: es => if k = name then some x else get? name es

def contains (name : String) (es : List (String × α)) : Bool := (get? name es).isSome

/-- Writes an entry, in the place of the one that has the name or else at the end. -/
def insert (name : String) (x : α) : List (String × α) → List (String × α)
  | [] => [(name, x)]
  | (k, y) :: es => if k = name then (k, x) :: es else (k, y) :: insert name x es

def erase (name : String) (es : List (String × α)) : List (String × α) :=
  es.filter fun e => e.1 ≠ name

/-- The entries written one after the other, so that each name stands once. -/
def ofList (es : List (String × α)) : List (String × α) :=
  es.foldl (fun acc e => insert e.1 e.2 acc) []

@[simp] theorem get?_insert_self (name : String) (x : α) (es : List (String × α)) :
    get? name (insert name x es) = some x := by
  induction es with
  | nil => simp [insert, get?]
  | cons e es ih =>
    obtain ⟨k, y⟩ := e
    by_cases h : k = name <;> simp [insert, get?, h, ih]

theorem get?_insert_of_ne {name other : String} (x : α) (es : List (String × α))
    (h : other ≠ name) : get? other (insert name x es) = get? other es := by
  induction es with
  | nil => simp [insert, get?, Ne.symm h]
  | cons e es ih =>
    obtain ⟨k, y⟩ := e
    by_cases hk : k = name
    · subst hk; simp [insert, get?, Ne.symm h]
    · simp [insert, get?, hk, ih]

theorem get?_insert (name other : String) (x : α) (es : List (String × α)) :
    get? other (insert name x es) = if other = name then some x else get? other es := by
  by_cases h : other = name
  · subst h; simp
  · simp [h, get?_insert_of_ne x es h]

theorem keys_insert (name : String) (x : α) (es : List (String × α)) :
    keys (insert name x es) = if name ∈ keys es then keys es else keys es ++ [name] := by
  induction es with
  | nil => simp [insert, keys]
  | cons e es ih =>
    obtain ⟨k, y⟩ := e
    by_cases hk : k = name
    · subst hk; simp [insert, keys]
    · have hn : ¬ name = k := fun h => hk h.symm
      simp only [insert, hk, keys, List.map_cons, List.mem_cons, hn] at ih ⊢
      simp only [if_false, List.map_cons, false_or, ih]
      split <;> simp [*]

theorem nodup_keys_insert (name : String) (x : α) {es : List (String × α)}
    (h : (keys es).Nodup) : (keys (insert name x es)).Nodup := by
  rw [keys_insert]
  split
  · exact h
  · next hn =>
    rw [List.nodup_append]
    exact ⟨h, by simp, fun a ha b hb => by simp at hb; subst hb; rintro rfl; exact hn ha⟩

theorem get?_erase (name other : String) (es : List (String × α)) :
    get? other (erase name es) = if other = name then none else get? other es := by
  induction es with
  | nil => simp [erase, get?]
  | cons e es ih =>
    obtain ⟨k, y⟩ := e
    simp only [erase] at ih
    by_cases hk : k = name
    · subst hk
      simp only [erase, ne_eq, not_true_eq_false, decide_false, List.filter_cons, get?]
      grind
    · simp only [erase, ne_eq, hk, not_false_eq_true, decide_true, List.filter_cons, if_true, get?, ih]
      grind

theorem get?_eq_none_iff (name : String) (es : List (String × α)) :
    get? name es = none ↔ name ∉ keys es := by
  induction es with
  | nil => simp [get?, keys]
  | cons e es ih =>
    obtain ⟨k, y⟩ := e
    by_cases hk : k = name
    · subst hk; simp [get?, keys]
    · have hn : ¬ name = k := fun h => hk h.symm
      simp only [keys] at ih
      simp [get?, keys, hk, ih, hn]

theorem get?_map {β : Type} (f : α → β) (name : String) (es : List (String × α)) :
    get? name (es.map fun e => (e.1, f e.2)) = (get? name es).map f := by
  induction es with
  | nil => rfl
  | cons e es ih =>
    obtain ⟨k, y⟩ := e
    by_cases hk : k = name <;> simp [get?, hk, ih]

theorem mem_of_get? {name : String} {x : α} {es : List (String × α)}
    (h : get? name es = some x) : (name, x) ∈ es := by
  induction es with
  | nil => cases h
  | cons e es ih =>
    obtain ⟨k, y⟩ := e
    by_cases hk : k = name
    · simp [get?, hk] at h
      simp [hk, h]
    · simp only [get?, hk, if_false] at h
      exact List.mem_cons_of_mem _ (ih h)

theorem get?_eq_some_iff {name : String} {x : α} {es : List (String × α)} (h : (keys es).Nodup) :
    get? name es = some x ↔ (name, x) ∈ es := by
  refine ⟨mem_of_get?, fun hmem => ?_⟩
  induction es with
  | nil => cases hmem
  | cons e es ih =>
    obtain ⟨k, y⟩ := e
    obtain ⟨hfresh, hrest⟩ := List.nodup_cons.1 h
    obtain heq | hmem := List.mem_cons.1 hmem
    · cases heq
      simp [get?]
    · have hk : k ≠ name := by
        rintro rfl
        exact hfresh (List.mem_map.2 ⟨_, hmem, rfl⟩)
      simp only [get?, hk, if_false]
      exact ih hrest hmem

end Stencil.Entries
