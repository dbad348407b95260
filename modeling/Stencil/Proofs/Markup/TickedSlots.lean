import Stencil.Proofs.Markup.Appending
import Stencil.Proofs.Markup.BareSlots
set_option autoImplicit false

namespace Stencil.Markup

open Text

theorem read_ticked {cs : List Char} {m : Marked} (hm : marker cs = .ok m)
    {payload bs rest : List Char}
    (hrest : m.rest = '\x60' :: (payload ++ '\x60' :: (bs ++ '\x7d' :: rest)))
    (htick : '\x60' ∉ payload) (hbs : ∀ c ∈ bs, isSlotBlank c = true) :
    Slot.read cs =
      .ok ⟨m.directive, m.text ++ ['\x60'], payload, '\x60' :: bs ++ ['\x7d'], rest⟩ := by
  have hplain : ∀ c ∈ payload, decide (c ≠ '\x60') = true := by
    intro c hc
    simpa using ne_of_mem_of_not_mem hc htick
  have hstop : ∀ c ∈ ('\x60' :: (bs ++ '\x7d' :: rest)).head?, decide (c ≠ '\x60') = false := by
    simp
  have hclose : ∀ c ∈ ('\x7d' :: rest).head?, isSlotBlank c = false := by
    intro c hc
    cases hc
    decide
  have hticked : Slot.readTicked m.directive (m.text ++ ['\x60'])
      (payload ++ '\x60' :: (bs ++ '\x7d' :: rest)) =
        .ok ⟨m.directive, m.text ++ ['\x60'], payload, '\x60' :: bs ++ ['\x7d'], rest⟩ := by
    simp only [Slot.readTicked, takeWhile_exact hplain hstop, dropWhile_exact hplain hstop,
      takeWhile_exact hbs hclose, dropWhile_exact hbs hclose, if_true]
  have hblank : isSlotBlank '\x60' = false := by decide
  rw [Slot.read, hm]
  simp only [hrest, List.takeWhile_cons, List.dropWhile_cons, hblank, Bool.false_eq_true, if_false,
    List.append_nil]
  exact hticked

theorem marker_underscore {bs : List Char} (hbs : ∀ c ∈ bs, isSlotBlank c = true) (d : Directive)
    (more : List Char) : marker (bs ++ '_' :: (d.name.toList ++ '\x60' :: more)) =
      .ok ⟨d, bs ++ '_' :: d.name.toList, '\x60' :: more⟩ := by
  have hstop : ∀ c ∈ ('_' :: (d.name.toList ++ '\x60' :: more)).head?, isSlotBlank c = false := by
    intro c hc
    cases hc
    decide
  rw [marker, takeWhile_exact hbs hstop, dropWhile_exact hbs hstop]
  cases d <;> rfl

namespace Usage

def directive : Usage → Directive
  | .alone | .print => .print
  | .ifStart => .ifStart
  | .elseIf => .elseIf
  | .forStart .. => .forStart
  | .embed _ => .embed

def word : Usage → List Char
  | .alone => []
  | u => u.directive.name.toList

def header : Usage → List Char
  | .forStart index value => loopHeader index value ++ [' ']
  | .embed path => path.toList ++ [' ']
  | _ => []

def front (u : Usage) : List Char := opener ++ '_' :: (u.word ++ '\x60' :: u.header)

def ticked (u : Usage) (x : String) : String :=
  String.ofList (u.front ++ (x.toList ++ ['\x60', '\x7d']))

def tickedToken (u : Usage) (x : String) : Token := u.token ⟨x, byteLength u.front⟩

/-- Between the backticks any text can stand that has none. Behind a header it has no blanks around
it. -/
def Quotes (x : String) (u : Usage) : Prop :=
  '\x60' ∉ x.toList ∧
    match u with
    | .forStart index value => isName index = true ∧ isName value = true ∧ Solid x.toList
    | .embed path => isPath path = true ∧ Solid x.toList
    | _ => True

theorem marker_ticked (u : Usage) (more : List Char) :
    marker ('_' :: (u.word ++ '\x60' :: more)) = .ok ⟨u.directive, '_' :: u.word, '\x60' :: more⟩ := by
  cases u with
  | alone => rfl
  | _ => exact @marker_underscore [] (List.forall_mem_nil _) _ more

theorem Quotes.not_mem {x : String} {u : Usage} (h : u.Quotes x) :
    '\x60' ∉ u.header ++ x.toList := by
  rw [List.mem_append, not_or]
  refine ⟨?_, h.1⟩
  cases u with
  | forStart index value =>
    obtain ⟨-, hi, hv, -⟩ := h
    intro hm
    simp only [header, loopHeader, List.mem_append, List.mem_cons, List.not_mem_nil, or_false] at hm
    obtain (hm | hm | hm | hm | hm | hm | hm) | hm := hm
    case inl.inl => exact absurd (mem_of_isName hi hm) (by decide)
    case inl.inr.inr.inr.inl => exact absurd (mem_of_isName hv hm) (by decide)
    all_goals exact absurd hm (by decide)
  | embed path =>
    simp only [header, List.mem_append, List.mem_singleton, not_or]
    exact ⟨fun hm => (mem_of_isPath h.2.1 hm).2.2 rfl, by decide⟩
  | _ => simp [header]

/-- The token is read off the payload, whatever the expression says. -/
theorem Quotes.token {x : String} {u : Usage} (h : u.Quotes x) (rest : List Char) :
    Slot.token ⟨u.directive, '_' :: u.word ++ ['\x60'], u.header ++ x.toList, ['\x60', '\x7d'],
      rest⟩ 0 = .ok (u.tickedToken x) := by
  have hfront : byteLength u.front =
      0 + byteLength opener + byteLength ('_' :: u.word ++ ['\x60']) + byteLength u.header := by
    simp [front, byteLength_append, byteLength_cons, Nat.add_assoc]
  rw [tickedToken, hfront]
  cases u with
  | forStart index value =>
    obtain ⟨-, hi, hv, hx⟩ := h
    have hfor := forToken?_header hi hv (List.forall_mem_nil _) hx
      (0 + byteLength opener + byteLength ('_' :: (forStart index value).word ++ ['\x60']))
    have htext : String.ofList ((forStart index value).header ++ x.toList) =
        String.ofList (loopHeader index value ++ ' ' :: ([] ++ x.toList)) := by simp [header]
    simp only [Slot.token, directive, Slot.payloadAt, htext, hfor, String.ofList_toList]
    rfl
  | embed path =>
    obtain ⟨-, hp, hx⟩ := h
    have hembed := embedToken?_header hp (List.forall_mem_nil _) hx
      (0 + byteLength opener + byteLength ('_' :: (embed path).word ++ ['\x60']))
    have htext : String.ofList ((embed path).header ++ x.toList) =
        String.ofList (path.toList ++ ' ' :: ([] ++ x.toList)) := by simp [header]
    simp only [Slot.token, directive, Slot.payloadAt, htext, hembed, String.ofList_toList]
    rfl
  | _ =>
    simp only [Slot.token, directive, Slot.payloadAt, header, List.nil_append, String.ofList_toList]
    rfl

end Usage

theorem pieces_ticked {u : Usage} {x : String} (h : u.Quotes x) :
    ∃ span, pieces (u.ticked x) = .ok [⟨u.tickedToken x, span⟩] := by
  have hsource : (u.ticked x).toList = opener ++ '_' :: (u.word ++
      '\x60' :: ((u.header ++ x.toList) ++ '\x60' :: '\x7d' :: [])) := by
    simp [Usage.ticked, Usage.front]
  have hread : Slot.read ('_' :: (u.word ++
      '\x60' :: ((u.header ++ x.toList) ++ '\x60' :: '\x7d' :: []))) = .ok _ :=
    @read_ticked _ _ (u.marker_ticked _) _ [] _ rfl h.not_mem (List.forall_mem_nil _)
  rw [pieces, hsource, piecesFrom_opener hread (h.token []), piecesFrom_of_none rfl]
  exact ⟨_, rfl⟩

section

variable {α : Type} {literal : String → α} {xs ys zs : List α}

theorem Joins.eq_of_head {y : α} (h : Joins literal xs (y :: ys) zs) (hy : ∀ a, y ≠ literal a) :
    zs = xs ++ y :: ys := by
  cases h with
  | apart => rfl
  | merged _ _ _ b => exact absurd rfl (hy b)

theorem Joins.eq_of_last {x : α} (h : Joins literal (xs ++ [x]) ys zs) (hx : ∀ a, x ≠ literal a) :
    zs = xs ++ x :: ys := by
  generalize hus : xs ++ [x] = us at h
  cases h with
  | apart => rw [← hus, List.append_assoc, List.singleton_append]
  | merged _ _ a _ => exact absurd (List.append_singleton_inj.1 hus).2 (hx a)

end

theorem Usage.tickedToken_ne_literal (u : Usage) (x : String) (n : Nat) (text : String) :
    (u.tickedToken x).shift n ≠ .literal text := by
  cases u <;> simp [tickedToken, token, Token.shift]

theorem Usage.endsPlain_ticked (u : Usage) (x s : String) : EndsPlain (s ++ u.ticked x).toList := by
  intro c hc
  have hlast : (s ++ u.ticked x).toList.getLast? = some '\x7d' := by simp [ticked]
  rw [hlast] at hc
  cases hc
  decide

/-- A slot with backticks between two sources: the others are the same pieces, whatever it says. -/
theorem pieces_around {s₁ s₂ : String} {ps qs : List Piece} (h₁ : pieces s₁ = .ok ps)
    (h₂ : pieces s₂ = .ok qs) (he : EndsPlain s₁.toList) {u : Usage} {x : String}
    (h : u.Quotes x) :
    ∃ n rs, pieces (s₁ ++ u.ticked x ++ s₂) = .ok rs ∧
      rs.map Piece.token = ps.map Piece.token ++
        (u.tickedToken x).shift (byteLength s₁.toList) :: (qs.map Piece.token).map (Token.shift n) := by
  obtain ⟨span, hslot⟩ := pieces_ticked h
  have hne := u.tickedToken_ne_literal x (byteLength s₁.toList)
  obtain ⟨rs, hrs, hfront⟩ := pieces_append h₁ hslot he
  obtain ⟨us, hus, hback⟩ := pieces_append hrs h₂ (u.endsPlain_ticked x s₁)
  rw [hfront.eq_of_head hne] at hback
  exact ⟨_, us, hus, hback.eq_of_last hne⟩

end Stencil.Markup
