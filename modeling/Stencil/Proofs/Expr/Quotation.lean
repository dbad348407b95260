import Stencil.Proofs.Expr.Tokens
set_option autoImplicit false

namespace Stencil.Expr

open Text

/-- The text with a backslash in front of each backslash and each quote. -/
def escape (quote : Char) : List Char → List Char
  | [] => []
  | c :: cs =>
    if c = '\\' || c = quote then '\\' :: c :: escape quote cs else c :: escape quote cs

def stringLiteral (quote : Char) (text : String) : String :=
  String.ofList (quote :: (escape quote text.toList ++ [quote]))

theorem unescape_cons {c : Char} (h : c ≠ '\\') (cs : List Char) :
    unescape (c :: cs) = c :: unescape cs := by
  simp [unescape, h]

section

variable {quote : Char} (hq : quote = '"' ∨ quote = '\'')

include hq

theorem unescape_escape (cs : List Char) : unescape (escape quote cs) = cs := by
  induction cs with
  | nil => rfl
  | cons c cs ih =>
    unfold escape
    split
    · next hc =>
      -- what is escaped is none of the letters that stand for control characters
      have hletter : c = '\\' ∨ c = '"' ∨ c = '\'' := by
        simp only [Bool.or_eq_true, decide_eq_true_eq] at hc
        exact hc.imp_right fun (h : c = quote) => h ▸ hq
      obtain rfl | rfl | rfl := hletter <;> simp [unescape, ih]
    · next hc =>
      rw [unescape_cons (by simp_all), ih]

theorem stringExtent_escape (cs ys : List Char) :
    stringExtent quote (escape quote cs ++ quote :: ys) = ((escape quote cs).length + 1, true) := by
  have hne : quote ≠ '\\' := by obtain rfl | rfl := hq <;> decide
  induction cs with
  | nil => simp [escape, stringExtent_cons hne]
  | cons c cs ih =>
    unfold escape
    split
    · next hc =>
      have hfeed : c ≠ '\n' := by
        rintro rfl
        simp only [Bool.or_eq_true, decide_eq_true_eq] at hc
        obtain rfl | rfl := hq <;> exact absurd hc (by decide)
      simp [stringExtent, hfeed, ih]
    · next hc =>
      simp only [Bool.or_eq_true, decide_eq_true_eq, not_or] at hc
      simp [stringExtent_cons hc.1, hc.2, ih]

theorem munch_stringLiteral (cs : List Char) :
    munch quote (escape quote cs ++ [quote]) =
      (.string (String.ofList cs), (escape quote cs).length + 1) := by
  have hstart : isNameStart quote = false := by obtain rfl | rfl := hq <;> decide
  have hdigit : Decimal.isDigit quote = false := by obtain rfl | rfl := hq <;> decide
  simp [munch, hstart, hdigit, hq, stringExtent_escape hq, unescape_escape hq]

theorem lex_stringLiteral (text : String) :
    lex (stringLiteral quote text) =
      [⟨.string text, 0, byteLength (stringLiteral quote text).toList⟩] := by
  have hblank : isLexBlank quote = false := by obtain rfl | rfl := hq <;> decide
  have hlength : (escape quote text.toList ++ [quote]).length =
      (escape quote text.toList).length + 1 := by simp
  rw [lex, stringLiteral, String.toList_ofList, lexFrom, if_neg (by simp [hblank]),
    munch_stringLiteral hq, ← hlength]
  dsimp only
  rw [List.take_length, List.drop_length, lexFrom, String.ofList_toList, Nat.zero_add]

theorem parse_stringLiteral (text : String) :
    parse (stringLiteral quote text) = .ok (.literal (.string text)) := by
  rw [parse, lex_stringLiteral hq]
  rfl

end

end Stencil.Expr
