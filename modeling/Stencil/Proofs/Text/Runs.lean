import Mathlib.Data.List.TakeWhile
import Stencil.Text.Blank
set_option autoImplicit false

namespace Stencil.Text

variable {p : Char → Bool}

theorem dropWhile_append {xs ys : List Char} (h : (xs ++ ys).takeWhile p = xs.takeWhile p) :
    (xs ++ ys).dropWhile p = xs.dropWhile p ++ ys := by
  have happ := List.takeWhile_append_dropWhile (p := p) (l := xs ++ ys)
  rw [h] at happ
  conv at happ =>
    rhs
    rw [← List.takeWhile_append_dropWhile (p := p) (l := xs), List.append_assoc]
  exact List.append_cancel_left happ

theorem takeWhile_cut {xs ys : List Char} (h : ((xs ++ ys).takeWhile p).length ≤ xs.length) :
    xs.takeWhile p = (xs ++ ys).takeWhile p := by
  rw [List.takeWhile_append] at h ⊢
  split
  · next hall =>
    rw [if_pos hall, List.length_append] at h
    have hnil : ys.takeWhile p = [] := List.eq_nil_of_length_eq_zero (by omega)
    rw [hnil, List.append_nil]
    exact (List.takeWhile_prefix p).eq_of_length hall
  · rfl

theorem takeWhile_append_stop {ys : List Char} (hys : ∀ y ∈ ys.head?, p y = false)
    (xs : List Char) :
    (xs ++ ys).takeWhile p = xs.takeWhile p := by
  have hnil : ys.takeWhile p = [] := by
    cases ys with
    | nil => rfl
    | cons y ys => simp [hys y rfl]
  rw [List.takeWhile_append, hnil]
  split
  · next h =>
    rw [List.append_nil]
    exact ((List.takeWhile_prefix p).eq_of_length h).symm
  · rfl

theorem dropWhile_append_stop {ys : List Char} (hys : ∀ y ∈ ys.head?, p y = false)
    (xs : List Char) :
    (xs ++ ys).dropWhile p = xs.dropWhile p ++ ys :=
  dropWhile_append (takeWhile_append_stop hys xs)

theorem takeWhile_exact {xs ys : List Char} (hxs : ∀ x ∈ xs, p x = true)
    (hys : ∀ y ∈ ys.head?, p y = false) : (xs ++ ys).takeWhile p = xs := by
  rw [takeWhile_append_stop hys, List.takeWhile_eq_self_iff.2 hxs]

theorem dropWhile_exact {xs ys : List Char} (hxs : ∀ x ∈ xs, p x = true)
    (hys : ∀ y ∈ ys.head?, p y = false) : (xs ++ ys).dropWhile p = ys := by
  rw [dropWhile_append_stop hys, List.dropWhile_eq_nil_iff.2 hxs, List.nil_append]

/-- Where a run ends before a character that stops it, it is known from the whole text. -/
theorem run_append_inj {xs xs' ys ys' : List Char} (hxs : ∀ x ∈ xs, p x = true)
    (hxs' : ∀ x ∈ xs', p x = true) (hys : ∀ y ∈ ys.head?, p y = false)
    (hys' : ∀ y ∈ ys'.head?, p y = false) (h : xs ++ ys = xs' ++ ys') : xs = xs' ∧ ys = ys' := by
  have htake := congrArg (List.takeWhile p) h
  have hdrop := congrArg (List.dropWhile p) h
  rw [takeWhile_exact hxs hys, takeWhile_exact hxs' hys'] at htake
  rw [dropWhile_exact hxs hys, dropWhile_exact hxs' hys'] at hdrop
  exact ⟨htake, hdrop⟩

theorem takeWhile_append_of_mem {c : Char} {xs : List Char} (hc : c ∈ xs) (hp : p c = false)
    (ys : List Char) : (xs ++ ys).takeWhile p = xs.takeWhile p := by
  induction xs with
  | nil => cases hc
  | cons x xs ih =>
    cases hx : p x with
    | false => simp [hx]
    | true =>
      have hne : c ≠ x := by
        rintro rfl
        simp [hp] at hx
      simp [hx, ih (List.mem_of_ne_of_mem hne hc)]

theorem dropWhile_append_of_mem {c : Char} {xs : List Char} (hc : c ∈ xs) (hp : p c = false)
    (ys : List Char) : (xs ++ ys).dropWhile p = xs.dropWhile p ++ ys :=
  dropWhile_append (takeWhile_append_of_mem hc hp ys)

theorem mem_dropWhile {c : Char} {xs : List Char} (hc : c ∈ xs) (hp : p c = false) :
    c ∈ xs.dropWhile p := by
  rw [← List.takeWhile_append_dropWhile (p := p) (l := xs), List.mem_append] at hc
  refine hc.resolve_left fun h => ?_
  simp [List.mem_takeWhile_imp h] at hp

theorem mem_of_dropWhile {c : Char} {xs rest : List Char} (h : xs.dropWhile p = c :: rest) :
    c ∈ xs ∧ p c = false := by
  have hc := List.head?_dropWhile_not p xs
  rw [h] at hc
  refine ⟨(List.dropWhile_suffix p).subset ?_, by simpa using hc⟩
  rw [h]
  exact List.mem_cons_self

theorem isSlotBlank_eq_false {c : Char} (h : isBlank c = false) : isSlotBlank c = false := by
  cases hs : isSlotBlank c with
  | false => rfl
  | true => simp [isSlotBlank_isBlank hs] at h

/-- A text with blanks at neither end, which is not empty. -/
structure Solid (cs : List Char) : Prop where
  head : ∃ c ∈ cs.head?, isBlank c = false
  last : ∃ c ∈ cs.getLast?, isBlank c = false

namespace Solid

variable {bs t cs : List Char}

theorem ne_nil (h : Solid t) : t ≠ [] := by
  rintro rfl
  obtain ⟨c, hc, -⟩ := h.head
  cases hc

theorem head_append (h : Solid t) (cs : List Char) : ∀ c ∈ (t ++ cs).head?, isBlank c = false := by
  obtain ⟨c, hc, hb⟩ := h.head
  intro d hd
  rw [List.head?_append, hc, Option.some_or] at hd
  exact Option.some.inj hd ▸ hb

theorem append {us : List Char} (h : Solid us) (ht : Solid t) (cs : List Char) :
    Solid (us ++ (cs ++ t)) := by
  obtain ⟨c, hc, hb⟩ := h.head
  obtain ⟨d, hd, he⟩ := ht.last
  refine ⟨⟨c, ?_, hb⟩, ⟨d, ?_, he⟩⟩
  · simp_all
  · simp_all

theorem trimStart_eq (h : Solid t) (hb : ∀ c ∈ bs, isBlank c = true) (cs : List Char) :
    trimStart (bs ++ (t ++ cs)) = t ++ cs :=
  dropWhile_exact hb (h.head_append cs)

theorem leadingBlanks_eq (h : Solid t) (hb : ∀ c ∈ bs, isBlank c = true) (cs : List Char) :
    leadingBlanks (bs ++ (t ++ cs)) = bs :=
  takeWhile_exact hb (h.head_append cs)

theorem last_reverse (h : Solid t) : ∀ c ∈ t.reverse.head?, isBlank c = false := by
  obtain ⟨c, hc, hb⟩ := h.last
  intro d hd
  rw [List.head?_reverse, hc] at hd
  exact Option.some.inj hd ▸ hb

theorem trailingBlanks_eq (h : Solid t) (hc : ∀ c ∈ cs, isBlank c = true) :
    trailingBlanks (t ++ cs) = cs := by
  rw [trailingBlanks, List.reverse_append, takeWhile_exact (by simpa using hc) h.last_reverse,
    List.reverse_reverse]

theorem trim_eq (h : Solid t) (hb : ∀ c ∈ bs, isBlank c = true)
    (hc : ∀ c ∈ cs, isBlank c = true) : trim (bs ++ (t ++ cs)) = t := by
  rw [trim, h.trimStart_eq hb, trimEnd, List.reverse_append,
    dropWhile_exact (by simpa using hc) h.last_reverse, List.reverse_reverse]

theorem trim_self (h : Solid t) : trim t = t := by
  simpa using h.trim_eq (List.forall_mem_nil _) (List.forall_mem_nil _)

end Solid

theorem solid_trim {cs : List Char} (h : trim cs ≠ []) : Solid (trim cs) := by
  have hlast : ∀ c ∈ (trim cs).getLast?, isBlank c = false := by
    intro c hc
    have hd := List.head?_dropWhile_not isBlank (trimStart cs).reverse
    rw [trim, trimEnd, List.getLast?_reverse] at hc
    rw [hc] at hd
    simpa using hd
  have hhead : ∀ c ∈ (trim cs).head?, isBlank c = false := by
    intro c hc
    have hd := List.head?_dropWhile_not isBlank cs
    have ha := congrArg List.head? (trimEnd_append_trailingBlanks (trimStart cs))
    rw [List.head?_append, ← trim, hc, Option.some_or] at ha
    rw [← trimStart, ← ha] at hd
    simpa using hd
  obtain ⟨c, hc⟩ := Option.isSome_iff_exists.1 (List.isSome_head?.2 h)
  obtain ⟨d, hd⟩ := Option.isSome_iff_exists.1 (List.getLast?_isSome.2 h)
  exact ⟨⟨c, hc, hhead c hc⟩, ⟨d, hd, hlast d hd⟩⟩

end Stencil.Text
