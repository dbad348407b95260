import Stencil.Proofs.Text.Boundaries
import Stencil.Text.Lines
set_option autoImplicit false

namespace Stencil

namespace Text

variable {cs : List Char} {ls : List (List Char)}

theorem byteLength_eq_length_iff : byteLength cs = cs.length ↔ ∀ c ∈ cs, c.utf8Size = 1 := by
  induction cs with
  | nil => simp
  | cons c cs ih =>
    have hc := c.utf8Size_pos
    have hcs := length_le_byteLength cs
    rw [List.forall_mem_cons, ← ih, byteLength_cons, List.length_cons]
    omega

/-- A position in a line, with the lines `above` in front of it. Only the last line reaches up to its
end. -/
theorem placeIn_append (above : List (List Char)) (front : List Char) {back : List Char}
    {below : List (List Char)} (hend : back = [] → below = []) (row : Nat) :
    placeIn (above ++ (front ++ back) :: below) row (above.flatten.length + front.length) =
      some ⟨row + above.length, front.length, front ++ back⟩ := by
  induction above generalizing row with
  | nil =>
    cases below with
    | nil => simp [placeIn]
    | cons m below =>
      have hback : 0 < back.length := List.length_pos_iff.2 fun h => by cases hend h
      simp [placeIn, hback]
  | cons l above ih =>
    have hrest := ih (row + 1)
    have hlength : (l :: above).flatten.length + front.length =
        l.length + (above.flatten.length + front.length) := by
      rw [List.flatten_cons, List.length_append, Nat.add_assoc]
    rw [hlength, List.length_cons, ← Nat.succ_add_eq_add_succ, ← hrest, List.cons_append]
    cases hls : above ++ (front ++ back) :: below with
    | nil => simp at hls
    | cons m ls => rw [placeIn, if_neg (by omega), Nat.add_sub_cancel_left]

theorem placeIn_position {row n : Nat} {p : Place} (h : placeIn ls row n = some p) :
    row ≤ p.row ∧ n = (ls.take (p.row - row)).flatten.length + p.column := by
  fun_induction placeIn ls row n with
  | case1 row => cases h; simp
  | case2 => cases h
  | case3 l row n => cases h; simp
  | case4 => cases h
  | case5 l m ls row n => cases h; simp
  | case6 l m ls row n hn ih =>
    obtain ⟨hrow, hposition⟩ := ih h
    obtain ⟨k, hk⟩ : ∃ k, p.row - row = k + 1 := ⟨p.row - (row + 1), by omega⟩
    have hk' : p.row - (row + 1) = k := by omega
    rw [hk'] at hposition
    rw [hk, List.take_succ_cons, List.flatten_cons, List.length_append]
    omega

theorem placeIn_fits {row n : Nat} {p : Place} (h : placeIn ls row n = some p) :
    n + p.line.length ≤ ls.flatten.length + p.column := by
  fun_induction placeIn ls row n with
  | case1 row => cases h; simp
  | case2 => cases h
  | case3 l row n => cases h; simp; omega
  | case4 => cases h
  | case5 l m ls row n => cases h; simp; omega
  | case6 l m ls row n hn ih =>
    have hfits := ih h
    rw [List.flatten_cons, List.length_append]
    omega

theorem place?_fits {n : Nat} {p : Place} (h : place? cs n = some p) :
    n + p.line.length ≤ cs.length + p.column := by
  have hfits := placeIn_fits h
  rwa [lines_flatten] at hfits

theorem place?_inj {m n : Nat} {p q : Place} (hm : place? cs m = some p) (hn : place? cs n = some q)
    (hrow : p.row = q.row) (hcolumn : p.column = q.column) : m = n := by
  rw [(placeIn_position hm).2, (placeIn_position hn).2, hrow, hcolumn]

end Text

namespace Span

open Text

variable {s : Span} {source front : List Char} {above : List (List Char)}

/-- The span lies in one line, with the lines `above` and the characters `front` of its line in front of
it. Something is left of the line behind its start, unless the source ends there. -/
def LiesIn (s : Span) (source : List Char) (above : List (List Char)) (front : List Char) : Prop :=
  ∃ rest below, lines source = above ++ (front ++ rest) :: below ∧ (rest = [] → below = []) ∧
    s.start = byteLength (above.flatten ++ front) ∧ s.start ≤ s.stop ∧
    s.stop ≤ s.start + byteLength rest

theorem LiesIn.start_le_stop (h : s.LiesIn source above front) : s.start ≤ s.stop := by
  obtain ⟨rest, below, -, -, -, hle, -⟩ := h
  exact hle

/-- The place of the character whose number is the first byte of the span is the place of that byte
only if there are no longer characters in front of it. -/
theorem LiesIn.place_iff (h : s.LiesIn source above front) :
    (∃ p, place? source s.start = some p ∧ p.row = above.length ∧ p.column = front.length) ↔
      ∀ c ∈ above.flatten ++ front, c.utf8Size = 1 := by
  obtain ⟨rest, below, hlines, hend, hstart, -, -⟩ := h
  have hplace := placeIn_append above front hend 0
  rw [← hlines, ← List.length_append, Nat.zero_add] at hplace
  rw [← byteLength_eq_length_iff, hstart]
  constructor
  · rintro ⟨p, hp, hrow, hcolumn⟩
    exact place?_inj hp hplace hrow hcolumn
  · intro h
    exact ⟨_, by rw [h]; exact hplace, rfl, rfl⟩

end Span

end Stencil
