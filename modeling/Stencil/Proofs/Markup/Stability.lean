import Stencil.Markup.Source
import Stencil.Proofs.Text.Runs
set_option autoImplicit false

/-!
# Slots before more text

Text behind a slot that is whole changes nothing of what is read of it. Main statement:
`Slot.read_append_right`.
-/

namespace Stencil.Markup

open Text

theorem bareBody_append_right {quote : Option Char} {depth : Nat} {cs : List Char}
    {p : List Char × List Char} (h : bareBody quote depth cs = some p) (ys : List Char) :
    bareBody quote depth (cs ++ ys) = some (p.1, p.2 ++ ys) := by
  fun_induction bareBody quote depth cs generalizing p with
  | case1 => cases h
  | case2 => cases h
  | case3 depth q c cs ih =>
    obtain ⟨p', hp, rfl⟩ := Option.map_eq_some_iff.1 h
    simp [bareBody, ih hp]
  | case4 depth c cs q hc ih =>
    obtain ⟨p', hp, rfl⟩ := Option.map_eq_some_iff.1 h
    rw [List.cons_append, bareBody.eq_def]
    simp [ih hp, hc]
  | case5 depth c cs hq ih =>
    obtain ⟨p', hp, rfl⟩ := Option.map_eq_some_iff.1 h
    rw [List.cons_append, bareBody.eq_def]
    simp [ih hp, hq]
  | case6 depth cs hq ih =>
    obtain ⟨p', hp, rfl⟩ := Option.map_eq_some_iff.1 h
    simp [bareBody, ih hp]
  | case7 cs hq hb =>
    cases h
    simp [bareBody]
  | case8 cs hq hb depth ih =>
    obtain ⟨p', hp, rfl⟩ := Option.map_eq_some_iff.1 h
    simp [bareBody, ih hp]
  | case9 depth c cs hq hopen hclose ih =>
    obtain ⟨p', hp, rfl⟩ := Option.map_eq_some_iff.1 h
    rw [List.cons_append, bareBody.eq_def]
    simp [ih hp, hq, hopen, hclose]

def Marked.append (m : Marked) (ys : List Char) : Marked := { m with rest := m.rest ++ ys }

def Slot.append (s : Slot) (ys : List Char) : Slot := { s with rest := s.rest ++ ys }

-- A closing brace is part of no marker: markers, and the blanks around them, end before it.
section

variable {cs : List Char} (hclose : '\x7d' ∈ cs)

include hclose

theorem endsMarker_append (ys : List Char) : endsMarker (cs ++ ys) = endsMarker cs := by
  cases cs with
  | nil => cases hclose
  | cons c cs => rfl

theorem plainMarker_append (blanks ys : List Char) :
    plainMarker blanks (cs ++ ys) = (plainMarker blanks cs).append ys := by
  have hp : Expr.isNamePart '\x7d' = false := by decide
  unfold plainMarker
  dsimp only
  rw [takeWhile_append_of_mem hclose hp, dropWhile_append_of_mem hclose hp,
    endsMarker_append (mem_dropWhile hclose hp)]
  split
  · split <;> rfl
  · rfl

theorem underscoreMarker_append (blanks ys : List Char) :
    underscoreMarker blanks (cs ++ ys) = (underscoreMarker blanks cs).map (Marked.append · ys) := by
  have hp : Expr.isNamePart '\x7d' = false := by decide
  have hb : isSlotBlank '\x7d' = false := by decide
  have hrest := mem_dropWhile hclose hp
  have hhead := List.isSome_head?.2 (List.ne_nil_of_mem (mem_dropWhile hrest hb))
  unfold underscoreMarker
  dsimp only
  rw [takeWhile_append_of_mem hclose hp, dropWhile_append_of_mem hclose hp,
    dropWhile_append_of_mem hrest hb, List.head?_append, Option.or_of_isSome hhead]
  split
  · rfl
  · split
    · rfl
    · split <;> rfl

theorem marker_append_right (ys : List Char) :
    marker (cs ++ ys) = (marker cs).map (Marked.append · ys) := by
  have hb : isSlotBlank '\x7d' = false := by decide
  have hrest := mem_dropWhile hclose hb
  unfold marker
  dsimp only
  rw [takeWhile_append_of_mem hclose hb, dropWhile_append_of_mem hclose hb]
  generalize cs.dropWhile isSlotBlank = content at hrest
  split
  · next more hm =>
    obtain ⟨rest, rfl⟩ : ∃ rest, content = '_' :: rest := by
      cases content with
      | nil => cases hrest
      | cons c rest => cases hm; exact ⟨rest, rfl⟩
    cases hm
    exact underscoreMarker_append (List.mem_of_ne_of_mem (by decide) hrest) _ ys
  · next hm =>
    rw [plainMarker_append hrest]
    split
    · next more => exact absurd rfl (hm (more ++ ys))
    · rfl

theorem mem_rest_of_marker {m : Marked} (h : marker cs = .ok m) : '\x7d' ∈ m.rest := by
  have hname : Expr.isNamePart '\x7d' = false := by decide
  have hb : isSlotBlank '\x7d' = false := by decide
  have hrest := mem_dropWhile hclose hb
  unfold marker at h
  dsimp only at h
  split at h
  · next more hm =>
    rw [hm] at hrest
    have hmore := List.mem_of_ne_of_mem (by decide) hrest
    unfold underscoreMarker at h
    dsimp only at h
    split at h
    · cases h
      exact mem_dropWhile hmore hname
    · split at h
      · cases h
        exact mem_dropWhile hmore hname
      · split at h
        · cases h
        · cases h
          exact hrest
  · cases h
    unfold plainMarker
    dsimp only
    split
    · split
      · exact mem_dropWhile hrest hname
      · exact hrest
    · exact hrest

end

theorem readTicked_append_right {d : Directive} {lead more : List Char} {s : Slot}
    (h : Slot.readTicked d lead more = .ok s) (ys : List Char) :
    Slot.readTicked d lead (more ++ ys) = .ok (s.append ys) := by
  unfold Slot.readTicked at h ⊢
  dsimp only at h ⊢
  split at h
  · cases h
  · next tick behind ht =>
    obtain ⟨htick, hp⟩ := mem_of_dropWhile ht
    rw [takeWhile_append_of_mem htick hp, dropWhile_append_of_mem htick hp, ht]
    split at h
    · cases h
    · next c rest hc =>
      obtain ⟨hmem, hb⟩ := mem_of_dropWhile hc
      dsimp only [List.cons_append]
      rw [takeWhile_append_of_mem hmem hb, dropWhile_append_of_mem hmem hb, hc]
      dsimp only [List.cons_append]
      split at h
      · next hclose =>
        cases h
        rw [if_pos hclose]
        rfl
      · cases h

theorem readBare_append_right {d : Directive} {lead body : List Char} {s : Slot}
    (h : Slot.readBare d lead body = .ok s) (ys : List Char) :
    Slot.readBare d lead (body ++ ys) = .ok (s.append ys) := by
  unfold Slot.readBare at h ⊢
  split at h
  · cases h
  · next raw rest hb =>
    cases h
    rw [bareBody_append_right hb]
    rfl

theorem getLast?_tail_of_read {cs : List Char} {s : Slot} (h : Slot.read cs = .ok s) :
    s.tail.getLast? = some '\x7d' := by
  unfold Slot.read at h
  split at h
  · cases h
  · dsimp only at h
    split at h
    · unfold Slot.readTicked at h
      dsimp only at h
      split at h
      · cases h
      · split at h
        · cases h
        · split at h
          · next hc =>
            cases h
            rw [hc, List.getLast?_concat]
          · cases h
    · unfold Slot.readBare at h
      split at h
      · cases h
      · cases h
        exact List.getLast?_concat

theorem mem_tail_of_read {cs : List Char} {s : Slot} (h : Slot.read cs = .ok s) :
    '\x7d' ∈ s.tail :=
  List.mem_of_getLast? (getLast?_tail_of_read h)

theorem mem_of_read {cs : List Char} {s : Slot} (h : Slot.read cs = .ok s) : '\x7d' ∈ cs := by
  rw [← Slot.read_append h, Slot.text]
  simp [mem_tail_of_read h]

/-- A slot that is whole does not depend on the text behind it. -/
theorem Slot.read_append_right {cs : List Char} {s : Slot} (h : read cs = .ok s) (ys : List Char) :
    read (cs ++ ys) = .ok (s.append ys) := by
  have hclose := mem_of_read h
  have hb : isSlotBlank '\x7d' = false := by decide
  unfold read at h ⊢
  rw [marker_append_right hclose]
  split at h
  · cases h
  · next m hm =>
    have hrest := mem_rest_of_marker hclose hm
    have hbody := mem_dropWhile hrest hb
    rw [hm]
    dsimp only [Except.map, Marked.append] at h ⊢
    rw [takeWhile_append_of_mem hrest hb, dropWhile_append_of_mem hrest hb]
    generalize m.rest.dropWhile isSlotBlank = body at h hbody
    split at h
    · exact readTicked_append_right h ys
    · next hm =>
      split
      · next more he =>
        cases body with
        | nil => cases hbody
        | cons c body => cases he; exact absurd rfl (hm body)
      · exact readBare_append_right h ys

theorem Slot.token_append (s : Slot) (ys : List Char) (start : Nat) :
    (s.append ys).token start = s.token start := by
  obtain ⟨d, lead, payload, tail, rest⟩ := s
  cases d with
  | elsePart | endIf | endFor => rfl
  | _ => simp only [token, append, payloadAt, length, text]

theorem splitOpener_append_some {cs before behind : List Char}
    (h : splitOpener cs = some (before, behind)) (ys : List Char) :
    splitOpener (cs ++ ys) = some (before, behind ++ ys) := by
  induction cs generalizing before with
  | nil => cases h
  | cons c cs ih =>
    unfold splitOpener at h
    split at h
    · next hc =>
      cases h
      cases cs with
      | nil => simp at hc
      | cons d cs =>
        simp only [Bool.and_eq_true, decide_eq_true_eq, List.head?_cons, Option.some.injEq] at hc
        simp [splitOpener, hc]
    · next hc =>
      obtain ⟨p, hp, he⟩ := Option.map_eq_some_iff.1 h
      cases he
      have hne : ¬(c = '$' && (cs ++ ys).head? = some '\x7b') = true := by
        cases cs with
        | nil => cases hp
        | cons d cs => exact hc
      rw [List.cons_append, splitOpener, if_neg hne, ih hp]
      rfl

end Stencil.Markup
