import Stencil.Text.Span
set_option autoImplicit false

namespace Stencil

namespace Text

/-- The position falls between two characters of the text, or at one of its ends. -/
def Boundary (cs : List Char) (n : Nat) : Prop :=
  ∃ before behind, cs = before ++ behind ∧ n = byteLength before

theorem byteLength_toList (text : String) : byteLength text.toList = text.utf8ByteSize := by
  induction text using String.push_induction with
  | empty => simp
  | push text c ih => simp [ih]

theorem byteLength_eq_zero_iff {cs : List Char} : byteLength cs = 0 ↔ cs = [] := by
  cases cs with
  | nil => simp
  | cons c cs =>
    have := c.utf8Size_pos
    simp
    omega

theorem not_boundary_inside (xs ys : List Char) {c : Char} {k : Nat} (hk : 0 < k)
    (hc : k < c.utf8Size) : ¬ Boundary (xs ++ c :: ys) (byteLength xs + k) := by
  rintro ⟨before, behind, hcs, hlength⟩
  obtain ⟨zs, rfl, hbehind⟩ | ⟨zs, rfl, -⟩ := List.append_eq_append_iff.1 hcs
  · rw [byteLength_append] at hlength
    cases zs with
    | nil =>
      rw [byteLength_nil] at hlength
      omega
    | cons d zs =>
      obtain ⟨rfl, -⟩ := List.cons.inj hbehind
      rw [byteLength_cons] at hlength
      omega
  · rw [byteLength_append] at hlength
    omega

namespace Boundary

variable {cs : List Char} {n : Nat}

theorem le (h : Boundary cs n) : n ≤ byteLength cs := by
  obtain ⟨before, behind, rfl, rfl⟩ := h
  simp

theorem within (h : Boundary cs n) (before behind : List Char) :
    Boundary (before ++ cs ++ behind) (byteLength before + n) := by
  obtain ⟨xs, ys, rfl, rfl⟩ := h
  exact ⟨before ++ xs, ys ++ behind, by simp, by simp⟩

end Boundary

end Text

open Text

/-- The text stands at these bytes of the source. They begin and end between characters. -/
def Span.Covers (s : Span) (source text : List Char) : Prop :=
  ∃ before behind, source = before ++ text ++ behind ∧
    s = ⟨byteLength before, byteLength before + byteLength text⟩

namespace Span

variable {s : Span} {source text : List Char}

/-- A text is covered by a span if and only if the span lies between boundaries, the right way round. -/
theorem exists_covers_iff :
    (∃ text, s.Covers source text) ↔
      Boundary source s.start ∧ Boundary source s.stop ∧ s.start ≤ s.stop := by
  constructor
  · rintro ⟨text, before, behind, rfl, rfl⟩
    exact ⟨⟨before, text ++ behind, by simp, rfl⟩, ⟨before ++ text, behind, rfl, by simp⟩, by simp⟩
  · rintro ⟨⟨xs, ys, rfl, hx⟩, ⟨xs', ys', he, hx'⟩, hle⟩
    obtain ⟨zs, rfl, rfl⟩ | ⟨zs, rfl, rfl⟩ := List.append_eq_append_iff.1 he
    · refine ⟨zs, xs, ys', by simp, ?_⟩
      rw [byteLength_append] at hx'
      cases s
      simp_all
    · rw [byteLength_append] at hx
      obtain rfl : zs = [] := byteLength_eq_zero_iff.1 (by omega)
      refine ⟨[], xs', ys, by simp, ?_⟩
      cases s
      simp_all

end Span

end Stencil
