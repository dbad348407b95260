import Stencil.Markup.Source
import Stencil.Proofs.Markup.Scanning
set_option autoImplicit false

namespace Stencil.Markup

open Text

/-- A word that is an identifier and no keyword. -/
def isName (name : String) : Bool :=
  match name.toList with
  | [] => false
  | c :: cs => Expr.isNameStart c && cs.all Expr.isNamePart && (Expr.keyword? (c :: cs)).isNone

/-- A path without blanks, quotes, braces and backticks. -/
def isPath (path : String) : Bool :=
  path ≠ "" && path.toList.all fun c => !isBlank c && isPlain c && c ≠ '\x60'

theorem solid_of_nonblank {cs : List Char} (hne : cs ≠ []) (h : ∀ c ∈ cs, isBlank c = false) :
    Solid cs := by
  obtain ⟨c, hc⟩ := Option.isSome_iff_exists.1 (List.isSome_head?.2 hne)
  obtain ⟨d, hd⟩ := Option.isSome_iff_exists.1 (List.getLast?_isSome.2 hne)
  exact ⟨⟨c, hc, h c (List.mem_of_mem_head? hc)⟩, ⟨d, hd, h d (List.mem_of_mem_getLast? hd)⟩⟩

theorem ofList_ne_of_solid {t : List Char} (h : Solid t) : String.ofList t ≠ "" := by
  intro he
  rw [← String.toList_inj, String.toList_ofList] at he
  exact h.ne_nil he

theorem trimmed_solid {bs t : List Char} (hbs : ∀ c ∈ bs, isBlank c = true) (ht : Solid t)
    (offset : Nat) :
    Payload.trimmed (bs ++ t) offset = ⟨String.ofList t, offset + byteLength bs⟩ := by
  have htrim := ht.trim_eq hbs (List.forall_mem_nil _)
  have hlead := ht.leadingBlanks_eq hbs []
  rw [List.append_nil] at htrim hlead
  rw [Payload.trimmed, htrim, hlead]

theorem dropBytes_append (xs ys : List Char) : dropBytes (byteLength xs) (xs ++ ys) = ys := by
  induction xs with
  | nil => simp [dropBytes]
  | cons c cs ih =>
    have hc := c.utf8Size_pos
    obtain ⟨n, hn⟩ : ∃ n, byteLength (c :: cs) = n + 1 := ⟨byteLength (c :: cs) - 1, by simp; omega⟩
    have hsub : n + 1 - c.utf8Size = byteLength cs := by rw [← hn]; simp
    rw [hn, List.cons_append, dropBytes, hsub, ih]
    simp

theorem lexFrom_name {name : String} (hn : isName name = true) {tail : List Char}
    (ht : ∀ d ∈ tail.head?, Expr.isNamePart d = false) (start : Nat) :
    Expr.lexFrom start (name.toList ++ tail) =
      ⟨.ident name, start, start + byteLength name.toList⟩ ::
        Expr.lexFrom (start + byteLength name.toList) tail := by
  unfold isName at hn
  split at hn
  · cases hn
  · next c cs hc =>
    simp only [Bool.and_eq_true, List.all_eq_true, Option.isNone_iff_eq_none] at hn
    obtain ⟨⟨hstart, hpart⟩, hkey⟩ := hn
    have hword : Expr.wordToken (c :: cs) = .ident name := by
      rw [Expr.wordToken, hkey, ← hc, String.ofList_toList]
    rw [hc, Expr.lexFrom_word hstart hpart ht, hword]

theorem lexFrom_comma (start : Nat) (tail : List Char) :
    Expr.lexFrom start (',' :: tail) =
      ⟨.symbol .comma, start, start + 1⟩ :: Expr.lexFrom (start + 1) tail := by
  have hm : Expr.munch ',' tail = (.symbol .comma, 0) := rfl
  rw [Expr.lexFrom, if_neg (by decide), hm]
  rfl

def loopHeader (index value : String) : List Char :=
  index.toList ++ ',' :: ' ' :: (value.toList ++ [' ', 'i', 'n'])

theorem lex_loopHeader {index value : String} (hi : isName index = true) (hv : isName value = true)
    (tail : List Char) :
    ∃ s₁ s₂ s₃ begin ls, Expr.lexFrom 0 (loopHeader index value ++ ' ' :: tail) =
      ⟨.ident index, s₁⟩ :: ⟨.symbol .comma, s₂⟩ :: ⟨.ident value, s₃⟩ ::
        ⟨.keyword .in, begin, byteLength (loopHeader index value)⟩ :: ls := by
  have hblank (start : Nat) (cs : List Char) :
      Expr.lexFrom start (' ' :: cs) = Expr.lexFrom (start + 1) cs :=
    Expr.lexFrom_blank (by decide) start cs
  have hword (start : Nat) : Expr.lexFrom start ('i' :: 'n' :: ' ' :: tail) =
      ⟨.keyword .in, start, start + 2⟩ :: Expr.lexFrom (start + 2) (' ' :: tail) :=
    @Expr.lexFrom_word 'i' ['n'] (' ' :: tail) (by decide) (by simp; decide) (by simp; decide) start
  have hindex := @lexFrom_name index hi
    (',' :: ' ' :: (value.toList ++ ' ' :: 'i' :: 'n' :: ' ' :: tail)) (by simp; decide) 0
  have hvalue := @lexFrom_name value hv (' ' :: 'i' :: 'n' :: ' ' :: tail) (by simp; decide)
  have hstop : byteLength (loopHeader index value) =
      0 + byteLength index.toList + 1 + 1 + byteLength value.toList + 1 + 2 := by
    have h1 : byteLength [',', ' '] = 2 := rfl
    have h2 : byteLength [' ', 'i', 'n'] = 3 := rfl
    simp only [loopHeader, byteLength_append, byteLength_cons, byteLength_nil] at h1 h2 ⊢
    omega
  rw [lexFrom_comma, hblank, hvalue, hblank, hword, ← hstop] at hindex
  refine ⟨_, _, _, _, _, Eq.trans ?_ hindex⟩
  simp [loopHeader]

theorem mem_of_isName {name : String} (hn : isName name = true) {c : Char}
    (hc : c ∈ name.toList) : Expr.isNamePart c = true := by
  unfold isName at hn
  split at hn
  · cases hn
  · next d ds hd =>
    simp only [Bool.and_eq_true, List.all_eq_true] at hn
    rw [hd] at hc
    obtain rfl | hc := List.mem_cons.1 hc
    · exact Expr.isNamePart_of_isNameStart hn.1.1
    · exact hn.1.2 c hc

theorem solid_of_isName {name : String} (hn : isName name = true) : Solid name.toList := by
  refine solid_of_nonblank ?_ fun c hc => ?_
  · rintro he
    simp [isName, he] at hn
  · have hp := mem_of_isName hn hc
    cases hb : isBlank c with
    | false => rfl
    | true => simp [Expr.isNamePart_of_isBlank hb] at hp

theorem solid_loopHeader {index value : String} (hi : isName index = true) :
    Solid (loopHeader index value) := by
  have h := (solid_of_isName hi).append (t := ['n']) ⟨⟨_, rfl, by decide⟩, ⟨_, rfl, by decide⟩⟩
    (',' :: ' ' :: (value.toList ++ [' ', 'i']))
  simpa [loopHeader] using h

theorem head?_loopHeader {index : String} (hi : isName index = true) (value : String) :
    (loopHeader index value).head? ≠ some '\x60' := by
  obtain ⟨c, hc, -⟩ := (solid_of_isName hi).head
  rw [loopHeader, List.head?_append, hc, Option.some_or]
  rintro ⟨⟩
  exact absurd (mem_of_isName hi (List.mem_of_mem_head? hc)) (by decide)

theorem isPlain_of_mem_loopHeader {index value : String} (hi : isName index = true)
    (hv : isName value = true) : ∀ c ∈ loopHeader index value, isPlain c = true := by
  intro c hc
  simp only [loopHeader, List.mem_append, List.mem_cons, List.not_mem_nil, or_false] at hc
  obtain hc | rfl | rfl | hc | rfl | rfl | rfl := hc
  case inl => exact isPlain_of_isNamePart (mem_of_isName hi hc)
  case inr.inr.inr.inl => exact isPlain_of_isNamePart (mem_of_isName hv hc)
  all_goals decide

theorem forToken?_header {index value : String} (hi : isName index = true)
    (hv : isName value = true) {bs t : List Char} (hbs : ∀ c ∈ bs, isBlank c = true) (ht : Solid t)
    (offset : Nat) :
    forToken? (String.ofList (loopHeader index value ++ ' ' :: (bs ++ t))) offset =
      some (.forStart index value
        ⟨String.ofList t, offset + byteLength (loopHeader index value ++ ' ' :: bs)⟩) := by
  obtain ⟨s₁, s₂, s₃, begin, ls, hlex⟩ := lex_loopHeader hi hv (bs ++ t)
  have hgap : ∀ c ∈ ' ' :: bs, isBlank c = true := List.forall_mem_cons.2 ⟨by decide, hbs⟩
  have hcollection := trimmed_solid hgap ht (offset + byteLength (loopHeader index value))
  rw [List.cons_append] at hcollection
  simp only [forToken?, Expr.lex, String.toList_ofList, hlex, dropBytes_append, hcollection,
    ofList_ne_of_solid ht, if_false]
  rw [byteLength_append, Nat.add_assoc]

theorem mem_of_isPath {path : String} (hp : isPath path = true) {c : Char}
    (hc : c ∈ path.toList) : isBlank c = false ∧ isPlain c = true ∧ c ≠ '\x60' := by
  simp only [isPath, Bool.and_eq_true, List.all_eq_true, Bool.not_eq_true', decide_eq_true_eq] at hp
  have h := hp.2 c hc
  exact ⟨h.1.1, h.1.2, h.2⟩

theorem solid_of_isPath {path : String} (hp : isPath path = true) : Solid path.toList := by
  refine solid_of_nonblank ?_ fun c hc => (mem_of_isPath hp hc).1
  rintro hn
  rw [String.toList_eq_nil_iff] at hn
  subst hn
  exact absurd hp (by decide)

theorem embedToken?_header {path : String} (hp : isPath path = true) {bs t : List Char}
    (hbs : ∀ c ∈ bs, isBlank c = true) (ht : Solid t) (offset : Nat) :
    embedToken? (String.ofList (path.toList ++ ' ' :: (bs ++ t))) offset =
      some (.embed path
        (some ⟨String.ofList t, offset + byteLength (path.toList ++ ' ' :: bs)⟩)) := by
  have hpath : ∀ c ∈ path.toList, (!isBlank c) = true := fun c hc => by
    simp [(mem_of_isPath hp hc).1]
  have hstop : ∀ c ∈ (' ' :: (bs ++ t)).head?, (!isBlank c) = false := by
    simp
    decide
  have hgap : ∀ c ∈ ' ' :: bs, isBlank c = true := List.forall_mem_cons.2 ⟨by decide, hbs⟩
  have hwhole := trimmed_solid (List.forall_mem_nil _) ((solid_of_isPath hp).append ht (' ' :: bs))
    offset
  have hcontext := trimmed_solid hgap ht (offset + byteLength path.toList)
  rw [List.nil_append, List.cons_append] at hwhole
  rw [List.cons_append] at hcontext
  simp only [embedToken?, String.toList_ofList, hwhole, takeWhile_exact hpath hstop,
    dropWhile_exact hpath hstop, byteLength_nil, Nat.add_zero, hcontext,
    ofList_ne_of_solid ht, if_false, String.ofList_toList]
  rw [if_neg (solid_of_isPath hp).ne_nil, byteLength_append, Nat.add_assoc]

end Stencil.Markup
