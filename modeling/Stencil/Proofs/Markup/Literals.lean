import Stencil.Proofs.Markup.Appending
set_option autoImplicit false

namespace Stencil.Markup

open Text

def unescapeOpeners : List Char → List Char
  | [] => []
  | '\\' :: '$' :: '\x7b' :: cs => '$' :: '\x7b' :: unescapeOpeners cs
  | c :: cs => c :: unescapeOpeners cs

/-- What the source text of a literal shows. In front of a slot the last of two backslashes is not
shown. -/
def shown (slotFollows : Bool) (raw : List Char) : List Char :=
  if slotFollows && ['\\', '\\'].isSuffixOf raw then (unescapeOpeners raw).dropLast
  else unescapeOpeners raw

theorem opener_eq_append {cs ys rest : List Char} (h : cs ++ ys = '$' :: '\x7b' :: rest) :
    (cs = [] ∧ ys = '$' :: '\x7b' :: rest) ∨ (cs = ['$'] ∧ ys = '\x7b' :: rest) ∨
      ∃ ds, cs = '$' :: '\x7b' :: ds := by
  obtain h | ⟨ds, rfl, hd⟩ := List.append_eq_cons_iff.1 h
  · exact .inl h
  · obtain ⟨rfl, hy⟩ | ⟨ds, rfl, -⟩ := List.cons_eq_append_iff.1 hd
    · exact .inr (.inl ⟨rfl, hy⟩)
    · exact .inr (.inr ⟨ds, rfl⟩)

theorem unescapeOpeners_append {cs ys : List Char}
    (h : EndsPlain cs ∨ ∀ c ∈ ys.head?, c ≠ '$' ∧ c ≠ '\x7b') :
    unescapeOpeners (cs ++ ys) = unescapeOpeners cs ++ unescapeOpeners ys := by
  fun_induction unescapeOpeners cs with
  | case1 => rfl
  | case2 cs ih =>
    have hrest := ih (h.imp_left (@EndsPlain.behind ['\\', '$', '\x7b'] cs))
    simp [unescapeOpeners, hrest]
  | case3 c cs hne ih =>
    have hnone : ∀ rest, c = '\\' → cs ++ ys = '$' :: '\x7b' :: rest → False := by
      rintro rest rfl he
      obtain ⟨rfl, rfl⟩ | ⟨rfl, rfl⟩ | ⟨ds, rfl⟩ := opener_eq_append he
      · exact h.elim (fun h => (h '\\' rfl).2 rfl) fun h => (h '$' rfl).1 rfl
      · exact h.elim (fun h => (h '$' rfl).1 rfl) fun h => (h '\x7b' rfl).2 rfl
      · exact hne ds rfl rfl
    rw [List.cons_append, unescapeOpeners.eq_3 c _ hnone,
      ih (h.imp_left (@EndsPlain.behind [c] cs)), List.cons_append]

theorem endsPlain_nil : EndsPlain [] := nofun

theorem endsPlain_opener (cs : List Char) : EndsPlain (cs ++ opener) := by
  intro c hc
  rw [opener, List.getLast?_append] at hc
  cases hc
  decide

theorem splitOpener_cons_eq_none {c : Char} {cs : List Char} (h : splitOpener (c :: cs) = none) :
    splitOpener cs = none := by
  unfold splitOpener at h
  split at h
  · cases h
  · exact Option.map_eq_none_iff.1 h

theorem unescapeOpeners_of_none {cs : List Char} (h : splitOpener cs = none) :
    unescapeOpeners cs = cs := by
  fun_induction unescapeOpeners cs with
  | case1 => rfl
  | case2 cs => cases h
  | case3 c cs hne ih => rw [ih (splitOpener_cons_eq_none h)]

theorem splitOpener_of_append {xs ys : List Char} (h : splitOpener (xs ++ ys) = none) :
    splitOpener xs = none := by
  cases hx : splitOpener xs with
  | none => rfl
  | some p => simp [splitOpener_append_some hx ys] at h

theorem splitOpener_before {cs before behind : List Char}
    (h : splitOpener cs = some (before, behind)) : splitOpener before = none := by
  cases hb : splitOpener before with
  | none => rfl
  | some p =>
    have hcs := splitOpener_append_some hb (opener ++ behind)
    rw [← List.append_assoc, splitOpener_append h, h] at hcs
    have hlength := congrArg List.length (splitOpener_append hb)
    have hp : before = p.1 := congrArg Prod.fst (Option.some.inj hcs)
    simp [opener, ← hp] at hlength

theorem splitOpener_opener {before : List Char} (h : splitOpener before = none)
    (behind : List Char) : splitOpener (before ++ (opener ++ behind)) = some (before, behind) := by
  have hseam : before.getLast? = some '$' → (opener ++ behind).head? ≠ some '\x7b' := fun _ => by
    simp [opener]
  have hopener : splitOpener (opener ++ behind) = some ([], behind) := rfl
  rw [splitOpener_seam h hseam, hopener, Option.map_some, List.append_nil]

theorem backslashes_append_one (cs : List Char) :
    backslashes (cs ++ ['\\']) = backslashes cs + 1 := by
  simp [backslashes]

theorem two_le_backslashes_iff (cs : List Char) :
    2 ≤ backslashes cs ↔ ['\\', '\\'] <:+ cs := by
  rw [← List.reverse_prefix, backslashes]
  generalize cs.reverse = ds
  rcases ds with _ | ⟨a, _ | ⟨b, ds⟩⟩
  · simp
  · by_cases ha : a = '\\' <;> simp [ha]
  · by_cases ha : a = '\\' <;> by_cases hb : b = '\\' <;> simp [ha, hb, eq_comm]

theorem dropLast_append_backslash {cs : List Char} (h : backslashes cs ≠ 0) :
    cs.dropLast ++ ['\\'] = cs := by
  rw [backslashes] at h
  cases hr : cs.reverse with
  | nil => simp [hr] at h
  | cons c ds =>
    by_cases hc : c = '\\'
    · rw [List.reverse_eq_cons_iff] at hr
      simp [hr, hc]
    · simp [hr, hc] at h

theorem shown_text {raw cs : List Char} (hr : EndsPlain raw) (hcs : splitOpener cs = none) :
    shown false (raw ++ cs) = unescapeOpeners raw ++ cs := by
  simp only [shown, Bool.false_and, Bool.false_eq_true, if_false]
  rw [unescapeOpeners_append (.inl hr), unescapeOpeners_of_none hcs]

theorem shown_slot {raw before : List Char} (hr : EndsPlain raw) (hs : splitOpener before = none)
    (hb : backslashes before ≠ 1) :
    shown true (raw ++ before) = unescapeOpeners raw ++ kept before := by
  have htwo : ['\\', '\\'].isSuffixOf (raw ++ before) = decide (backslashes before ≠ 0) := by
    rw [Bool.eq_iff_iff, List.isSuffixOf_iff_suffix, ← two_le_backslashes_iff,
      backslashes_append hr, decide_eq_true_iff]
    omega
  rw [shown, htwo, Bool.true_and, unescapeOpeners_append (.inl hr), unescapeOpeners_of_none hs, kept]
  by_cases h : backslashes before = 0
  · simp [h]
  · simp [h, List.dropLast_append_of_ne_nil (ne_nil_of_backslashes h)]

theorem unescapeOpeners_escaped {raw before : List Char} (hr : EndsPlain raw)
    (hs : splitOpener before = none) (hb : backslashes before = 1) :
    unescapeOpeners (raw ++ before ++ opener) =
      unescapeOpeners raw ++ before.dropLast ++ opener := by
  have hlast := dropLast_append_backslash (hb.trans_ne Nat.one_ne_zero)
  rw [← hlast] at hs
  have hinit := unescapeOpeners_of_none (splitOpener_of_append hs)
  rw [List.append_assoc, unescapeOpeners_append (.inl hr)]
  conv => lhs; rw [← hlast, List.append_assoc]
  rw [unescapeOpeners_append (.inr (by simp)), hinit, List.append_assoc]
  rfl

theorem unescapeOpeners_eq_nil {cs : List Char} : unescapeOpeners cs = [] ↔ cs = [] := by
  fun_cases unescapeOpeners cs <;> simp

theorem shown_eq_nil {slotFollows : Bool} {raw : List Char} :
    shown slotFollows raw = [] ↔ raw = [] := by
  unfold shown
  split
  · next h =>
    rw [Bool.and_eq_true, List.isSuffixOf_iff_suffix] at h
    obtain ⟨-, init, rfl⟩ := h
    rw [unescapeOpeners_append (.inr (by simp))]
    simp [unescapeOpeners]
  · exact unescapeOpeners_eq_nil

end Stencil.Markup
