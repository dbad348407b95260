import Stencil.Markup.Slot
import Stencil.Proofs.Expr.TokenTexts
set_option autoImplicit false

/-!
# Scanning a bare payload

The end of a bare payload is found without reading its tokens: by quotes, backslashes and braces
alone. For an expression both ways of reading agree. Main statements: `Expr.Derives.depth`, braces are
balanced in what the grammar derives, and `skips_of_parse`.
-/

namespace Stencil.Markup

open Text

/-- Outside of strings the text is passed over, from one depth of braces to another. -/
def Skips (xs : List Char) (d d' : Nat) : Prop :=
  ∀ tail, bareBody none d (xs ++ tail) = (bareBody none d' tail).map fun p => (xs ++ p.1, p.2)

theorem skips_nil (d : Nat) : Skips [] d d := fun tail => by simp

theorem Skips.append {xs ys : List Char} {d e f : Nat} (hx : Skips xs d e) (hy : Skips ys e f) :
    Skips (xs ++ ys) d f := by
  intro tail
  rw [List.append_assoc, hx, hy, Option.map_map]
  simp [Function.comp_def]

def isPlain (c : Char) : Bool := c ≠ '"' && c ≠ '\'' && c ≠ '\x7b' && c ≠ '\x7d'

theorem skips_of_plain {xs : List Char} (h : ∀ c ∈ xs, isPlain c = true) (d : Nat) :
    Skips xs d d := by
  induction xs with
  | nil => exact skips_nil d
  | cons c xs ih =>
    intro tail
    have hc := h c List.mem_cons_self
    simp only [isPlain, Bool.and_eq_true, decide_eq_true_eq] at hc
    have hrest := ih (fun c hc => h c (List.mem_cons_of_mem _ hc)) tail
    simp [bareBody, hc, hrest, Function.comp_def]

theorem isPlain_of_isNamePart {c : Char} (h : Expr.isNamePart c = true) : isPlain c = true := by
  simp only [isPlain, Bool.and_eq_true, decide_eq_true_eq]
  refine ⟨⟨⟨?_, ?_⟩, ?_⟩, ?_⟩ <;> rintro rfl <;> exact absurd h (by decide)

theorem isPlain_of_isBlank {c : Char} (h : isBlank c = true) : isPlain c = true := by
  simp only [isPlain, Bool.and_eq_true, decide_eq_true_eq]
  refine ⟨⟨⟨?_, ?_⟩, ?_⟩, ?_⟩ <;> rintro rfl <;> exact absurd h (by decide)

theorem bareBody_quoted_cons (q : Char) {c : Char} (h : c ≠ '\\') (d : Nat) (cs : List Char) :
    bareBody (some q) d (c :: cs) =
      (bareBody (if c = q then none else some q) d cs).map fun p => (c :: p.1, p.2) := by
  rw [bareBody.eq_def]
  simp [h]

theorem bareBody_string {q : Char} {cs : List Char} {n : Nat}
    (h : Expr.stringExtent q cs = (n, true)) (d : Nat) (tail : List Char) :
    bareBody (some q) d (cs.take n ++ tail) =
      (bareBody none d tail).map fun p => (cs.take n ++ p.1, p.2) := by
  fun_induction Expr.stringExtent q cs generalizing n with
  | case1 => simp at h
  | case2 => simp at h
  | case3 => simp at h
  | case4 c cs hc m closed he ih =>
    cases h
    simp [bareBody, ih he, Function.comp_def]
  | case5 cs hone hmore =>
    cases h
    simp [bareBody_quoted_cons q (Expr.ne_backslash hone hmore)]
  | case6 c cs hone hmore hcq m closed he ih =>
    cases h
    simp [bareBody_quoted_cons q (Expr.ne_backslash hone hmore), hcq, ih he, Function.comp_def]

theorem skips_string {q : Char} (hq : q = '"' ∨ q = '\'') {cs : List Char} {n : Nat}
    (h : Expr.stringExtent q cs = (n, true)) (d : Nat) : Skips (q :: cs.take n) d d := by
  intro tail
  rw [List.cons_append, bareBody.eq_def]
  simp [hq, bareBody_string h d tail, Function.comp_def]

/-- The depth of braces behind a token, for a closing brace only if there is an open one. -/
def depthBehind (d : Nat) : Expr.Token → Option Nat
  | .symbol .braceOpen => some (d + 1)
  | .symbol .braceClose =>
    match d with
    | 0 => none
    | d + 1 => some d
  | _ => some d

theorem skips_brace {s : Expr.Symbol} {d d' : Nat} (h : depthBehind d (.symbol s) = some d') :
    Skips s.spelling.toList d d' := by
  intro tail
  cases s with
  | braceOpen => cases h; simp [Expr.Symbol.spelling, bareBody]
  | braceClose =>
    cases d with
    | zero => simp [depthBehind] at h
    | succ d => cases h; simp [Expr.Symbol.spelling, bareBody]
  | _ => cases h; exact skips_of_plain (List.all_eq_true.1 rfl) d tail

theorem isPlain_of_mem_number {c : Char} {cs : List Char}
    (h : c ∈ cs.take (Expr.numberExtent cs)) : isPlain c = true := by
  have hdigit {ds : List Char} (h : c ∈ ds.takeWhile Decimal.isDigit) : isPlain c = true :=
    isPlain_of_isNamePart (Expr.isNamePart_of_isDigit (List.mem_takeWhile_imp h))
  obtain ht | ⟨rest, -, ht⟩ := Expr.take_numberExtent cs
  · exact hdigit (ht ▸ h)
  · rw [ht, List.mem_append, List.mem_cons] at h
    obtain h | rfl | h := h
    · exact hdigit h
    · decide
    · exact hdigit h

theorem skips_munch {c : Char} {cs : List Char} {d d' : Nat}
    (hne : ∀ text, (Expr.munch c cs).1 ≠ .error text)
    (h : depthBehind d (Expr.munch c cs).1 = some d') :
    Skips (c :: cs.take (Expr.munch c cs).2) d d' := by
  have hm := Expr.munched_munch c cs
  generalize Expr.munch c cs = m at hm hne h
  cases hm with
  | word hc =>
    have hword : ∀ x ∈ c :: cs.takeWhile Expr.isNamePart, isPlain x = true := by
      intro x hx
      obtain rfl | hx := List.mem_cons.1 hx
      · exact isPlain_of_isNamePart (Expr.isNamePart_of_isNameStart hc)
      · exact isPlain_of_isNamePart (List.mem_takeWhile_imp hx)
    rw [Expr.take_length_takeWhile]
    have hd : d = d' := by
      unfold Expr.wordToken at h
      split at h <;> exact Option.some.inj h
    exact hd ▸ skips_of_plain hword d
  | number _ hc =>
    cases h
    refine skips_of_plain (fun x hx => ?_) d
    obtain rfl | hx := List.mem_cons.1 hx
    · exact isPlain_of_isNamePart (Expr.isNamePart_of_isDigit hc)
    · exact isPlain_of_mem_number hx
  | string hq he =>
    cases h
    exact skips_string hq he d
  | symbol _ _ _ hs =>
    rw [Expr.take_of_symbol? hs]
    exact skips_brace h
  | error text n => exact absurd rfl (hne text)

/-- A text of tokens is passed over from the depth before them to the one behind them. -/
theorem skips_tokens {cs : List Char} {d d' : Nat} (hr : Expr.Readable (Expr.tokens cs))
    (h : (Expr.tokens cs).foldlM depthBehind d = some d') : Skips cs d d' := by
  induction cs using Expr.lex_induction generalizing d with
  | nil =>
    rw [Expr.tokens_nil] at h
    cases h
    exact skips_nil _
  | blank c cs hb ih =>
    rw [Expr.tokens_blank hb] at hr h
    have hc : ∀ x ∈ [c], isPlain x = true := by
      simpa using isPlain_of_isBlank (isSlotBlank_isBlank (isLexBlank_isSlotBlank hb))
    exact (skips_of_plain hc d).append (ih hr h)
  | token c cs hb ih =>
    rw [Expr.tokens_token hb] at hr h
    obtain ⟨e, he, hd⟩ := Option.bind_eq_some_iff.1 h
    have hm := skips_munch (fun text ht => hr text (ht ▸ List.mem_cons_self)) he
    have hrest := hm.append (ih (fun text ht => hr text (List.mem_cons_of_mem _ ht)) hd)
    rwa [List.cons_append, List.take_append_drop] at hrest

end Stencil.Markup

namespace Stencil.Expr

open Markup

/-- Braces are balanced in what the grammar derives. -/
theorem Derives.depth {p : Phrase} {ts : List Token} (h : Derives p ts) (d : Nat) :
    ts.foldlM depthBehind d = some d := by
  have hsign : ∀ p ∈ Category.signs, ∀ d, depthBehind d (.symbol p.1) = some d := by
    simp [Category.signs, depthBehind]
  have hop (c : Category) : ∀ p ∈ c.operators, ∀ d, depthBehind d (.symbol p.1) = some d := by
    cases c <;> simp [Category.operators, depthBehind]
  induction h generalizing d with
  | binary hs _ _ ihl ihr => simp [ihl, hop _ _ hs, ihr]
  | unary hs _ ih => simp [hsign _ hs, ih]
  | _ => simp_all [depthBehind]

end Stencil.Expr

namespace Stencil.Markup

theorem skips_of_parse {text : String} {x : Expr} (h : Expr.parse text = .ok x) (d : Nat) :
    Skips text.toList d d :=
  skips_tokens (Expr.readable_of_parse h) (((Expr.parse_eq_ok_iff text x).1 h).depth d)

end Stencil.Markup
