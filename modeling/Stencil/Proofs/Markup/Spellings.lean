import Stencil.Proofs.Markup.TickedSlots
set_option autoImplicit false

namespace Stencil.Markup

open Text

def markedLead (d : Directive) : List Char := ' ' :: '_' :: (d.name.toList ++ ['\x60'])

/-- The slot with its directive behind an underscore and its payload between backticks. -/
def marked (d : Directive) (payload : List Char) : Slot :=
  ⟨d, markedLead d, payload, ['\x60', ' ', '\x7d'], []⟩

theorem read_marked (d : Directive) {payload : List Char} (htick : '\x60' ∉ payload) :
    Slot.read (marked d payload).text = .ok (marked d payload) := by
  have hblank : ∀ c ∈ [' '], isSlotBlank c = true := List.forall_mem_singleton.2 rfl
  have hmarker := marker_underscore hblank d (payload ++ ['\x60', ' ', '\x7d'])
  have hread := @read_ticked _ _ hmarker payload [' '] [] rfl htick hblank
  simpa [marked, markedLead, Slot.text] using hread

theorem pieces_slot {s : Slot} (hs : Slot.read s.text = .ok s) (hrest : s.rest = []) :
    pieces (String.ofList (opener ++ s.text)) =
      (s.token 0).map fun t => [⟨t, 0, s.length⟩] := by
  rw [pieces, String.toList_ofList]
  cases ht : s.token 0 with
  | ok t =>
    rw [piecesFrom_opener hs ht, hrest, piecesFrom_of_none rfl]
    rfl
  | error x => exact @piecesFrom_of_token_error 0 0 [] _ [] s.text rfl (by decide) s hs x ht

/-- A slot whose payload has no backtick, however it is spelled, and the marked slot with its directive
and its payload have the same token, but for places. Where the one has none the other has none, for the
same reason. -/
theorem spellings_agree {begin pos : Nat} {text cs before behind : List Char} {s : Slot}
    (h : splitOpener cs = some (before, behind)) (hb : backslashes before ≠ 1)
    (hs : Slot.read behind = .ok s) (htick : '\x60' ∉ s.payload) :
    let start := pos + byteLength before
    let stop := start + s.length
    let m := marked s.directive s.payload
    (∃ t : Token,
      piecesFrom begin pos text cs = (piecesFrom stop stop [] s.rest).map (fun ps =>
        literalPiece (text ++ kept before) ⟨begin, start⟩ ++
          ⟨t.shift (start + byteLength s.lead), start, stop⟩ :: ps) ∧
      pieces (String.ofList (opener ++ m.text)) =
        .ok [⟨t.shift (byteLength m.lead), 0, m.length⟩]) ∨
    ∃ x : CompileError,
      piecesFrom begin pos text cs = .error (x.withSpan ⟨start, stop⟩) ∧
      pieces (String.ofList (opener ++ m.text)) = .error (x.withSpan ⟨0, m.length⟩) := by
  intro start stop m
  have hmarked := pieces_slot (read_marked s.directive htick) rfl
  have hs₁ := s.token_eq start
  have hs₂ := m.token_eq 0
  have hcore : m.core = s.core := rfl
  rw [hcore] at hs₂
  cases hcase : s.core.token 0 with
  | ok t =>
    rw [hcase] at hs₁ hs₂
    refine .inl ⟨t, piecesFrom_of_slot h hb hs hs₁, ?_⟩
    rw [hmarked, hs₂, Nat.zero_add, Nat.zero_add]
    rfl
  | error x =>
    rw [hcase] at hs₁ hs₂
    refine .inr ⟨x, piecesFrom_of_token_error h hb hs hs₁, ?_⟩
    rw [hmarked, hs₂, Nat.zero_add]
    rfl

theorem loop_respelled :
    let source := "é$\x7b for i ,v in \x7b'\x7d': ñs\x7d\u2003\x7dx"
    let respelled := "$\x7b _for\x60i ,v in \x7b'\x7d': ñs\x7d\x60 \x7d"
    ∃ t : Token, t.shift 7 = .forStart "i" "v" ⟨"\x7b'\x7d': ñs\x7d", 17⟩ ∧
      pieces source = .ok [⟨.literal "é", 0, 2⟩, ⟨t.shift 7, 2, 31⟩, ⟨.literal "x", 31, 32⟩] ∧
      pieces respelled = .ok [⟨t.shift 6, 0, 29⟩] := by
  intro source respelled
  let behind := " for i ,v in \x7b'\x7d': ñs\x7d\u2003\x7dx".toList
  let s : Slot :=
    ⟨.forStart, " for ".toList, "i ,v in \x7b'\x7d': ñs\x7d".toList, "\u2003\x7d".toList, ['x']⟩
  have hsource : source.toList = 'é' :: opener ++ behind := by decide
  have hrespelled : String.ofList (opener ++ (marked s.directive s.payload).text) = respelled := by
    decide
  have hplace : 0 + byteLength ['é'] + byteLength s.lead = 7 := by decide
  have hplace' : byteLength (marked s.directive s.payload).lead = 6 := by decide
  have hlength : (marked s.directive s.payload).length = 29 := by decide
  have hs : Slot.read behind = .ok s := by decide +kernel
  have hpieces : pieces source = .ok [⟨.literal "é", 0, 2⟩,
      ⟨.forStart "i" "v" ⟨"\x7b'\x7d': ñs\x7d", 17⟩, 2, 31⟩, ⟨.literal "x", 31, 32⟩] := by
    decide +kernel
  have hagree := @spellings_agree 0 0 [] source.toList ['é'] behind s (hsource ▸ rfl) (by decide) hs
    (by decide)
  dsimp only at hagree
  rw [← pieces, hpieces, hrespelled, hplace, hplace', hlength] at hagree
  obtain ⟨t, hbare, hmarked⟩ | ⟨x, hbare, -⟩ := hagree
  · have htoken : Token.forStart "i" "v" ⟨"\x7b'\x7d': ñs\x7d", 17⟩ = t.shift 7 := by
      have hplain : backslashes ['é'] = 0 := rfl
      rw [piecesFrom_of_none rfl] at hbare
      simp only [literalPiece, kept, hplain, if_true, List.nil_append, List.cons_ne_nil, if_false,
        Except.map, Except.ok.injEq, List.cons_append, List.cons.injEq, Piece.mk.injEq] at hbare
      exact hbare.2.1.1
    exact ⟨t, htoken.symm, htoken ▸ hpieces, hmarked⟩
  · cases hbare

end Stencil.Markup
