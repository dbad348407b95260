import Mathlib.Data.List.Infix
import Stencil.Proofs.Engine.Printing
import Stencil.Proofs.Markup.Coverage
import Stencil.Proofs.Program.Joining
set_option autoImplicit false

namespace Stencil

open Text

namespace Markup

def escapeOpeners : List Char → List Char
  | [] => []
  | '$' :: '\x7b' :: cs => '\\' :: '$' :: '\x7b' :: escapeOpeners cs
  | c :: cs => c :: escapeOpeners cs

def escapedOpener : List Char := '\\' :: opener

section

variable {cs before behind : List Char}

theorem splitOpener_cons {c : Char} (h : ∀ ds, c = '$' → cs = '\x7b' :: ds → False) :
    splitOpener (c :: cs) = (splitOpener cs).map fun p => (c :: p.1, p.2) := by
  rw [splitOpener, if_neg]
  simp only [Bool.and_eq_true, decide_eq_true_eq, not_and]
  intro hc hd
  cases cs with
  | nil => cases hd
  | cons d ds => exact h ds hc (by rw [Option.some.inj hd])

theorem escapeOpeners_of_none (h : splitOpener cs = none) : escapeOpeners cs = cs := by
  fun_induction escapeOpeners cs with
  | case1 => rfl
  | case2 cs => cases h
  | case3 c cs hne ih => rw [ih (splitOpener_cons_eq_none h)]

theorem escapeOpeners_of_some (h : splitOpener cs = some (before, behind)) :
    escapeOpeners cs = before ++ ['\\'] ++ (opener ++ escapeOpeners behind) := by
  fun_induction escapeOpeners cs generalizing before with
  | case1 => cases h
  | case2 cs =>
    cases h
    rfl
  | case3 c cs hne ih =>
    rw [splitOpener_cons hne] at h
    obtain ⟨p, hp, he⟩ := Option.map_eq_some_iff.1 h
    cases he
    rw [ih hp]
    rfl

theorem not_infix_of_none (h : splitOpener cs = none) : ¬ escapedOpener <:+: cs := by
  intro hin
  obtain ⟨xs, ys, rfl⟩ := hin
  have hcs : xs ++ escapedOpener ++ ys = xs ++ ['\\'] ++ (opener ++ ys) := by simp [escapedOpener]
  rw [hcs] at h
  have hfront := splitOpener_opener (splitOpener_of_append h) ys
  rw [h] at hfront
  cases hfront

theorem infix_iff_of_some (h : splitOpener cs = some (before, behind)) :
    escapedOpener <:+: cs ↔ backslashes before ≠ 0 ∨ escapedOpener <:+: behind := by
  constructor
  · intro hin
    obtain ⟨xs, ys, rfl⟩ := hin
    have hcs : xs ++ escapedOpener ++ ys = xs ++ ['\\'] ++ (opener ++ ys) := by simp [escapedOpener]
    rw [hcs] at h
    cases hx : splitOpener (xs ++ ['\\']) with
    | none =>
      rw [splitOpener_opener hx] at h
      cases h
      left
      rw [backslashes_append_one]
      exact Nat.succ_ne_zero _
    | some p =>
      obtain ⟨front, rest⟩ := p
      rw [splitOpener_append_some hx] at h
      cases h
      -- the backslash is the last character behind the first opener
      have hlast := congrArg List.getLast? (splitOpener_append hx)
      rw [List.getLast?_concat, List.getLast?_append] at hlast
      cases hr : rest.getLast? with
      | none =>
        rw [hr, Option.none_or, List.getLast?_append] at hlast
        cases hlast
      | some c =>
        rw [hr, Option.some_or, Option.some.injEq] at hlast
        obtain ⟨init, rfl⟩ := List.getLast?_eq_some_iff.1 (hlast ▸ hr)
        exact .inr ⟨init, ys, by simp [escapedOpener]⟩
  · intro hin
    rw [← splitOpener_append h]
    obtain hb | hin := hin
    · refine ⟨before.dropLast, behind, ?_⟩
      conv => rhs; rw [← dropLast_append_backslash hb]
      simp [escapedOpener]
    · exact hin.trans (List.suffix_append _ _).isInfix

end

/-- What is read as text alone has no opener behind a backslash. -/
theorem Cut.unescaped {begin pos : Nat} {text cs : List Char} {ps : List Piece}
    (h : Cut begin pos text cs ps) (hps : ∀ p ∈ ps, p.token.directive? = none) :
    ∃ behind span, ps = literalPiece (text ++ behind) span ∧ ¬ escapedOpener <:+: behind := by
  -- nothing need be known of the unfinished text: its openers are those in front of `cs`
  induction h with
  | text hs => exact ⟨_, _, rfl, not_infix_of_none hs⟩
  | @escaped begin pos text cs before behind ps hs hb _ ih =>
    obtain ⟨rest, span, rfl, hrest⟩ := ih hps
    have hlast := dropLast_append_backslash (hb.trans_ne Nat.one_ne_zero)
    have hbefore := splitOpener_before hs
    rw [← hlast, backslashes_append_one] at hb
    rw [← hlast] at hbefore
    have hfront := splitOpener_opener (splitOpener_of_append hbefore) rest
    refine ⟨before.dropLast ++ (opener ++ rest), span, by simp, ?_⟩
    rw [infix_iff_of_some hfront, not_or]
    exact ⟨by omega, hrest⟩
  | @slot begin pos text cs before behind ps s t hs hb hread ht _ ih =>
    have hnone := hps ⟨t, pos + byteLength before, pos + byteLength before + s.length⟩ (by simp)
    rw [directive?_token ht] at hnone
    cases hnone

/-- Written with a backslash in front of each opener a text is read as text. -/
theorem cut_escapeOpeners {cs : List Char} (h : ¬ escapedOpener <:+: cs) (begin pos : Nat)
    (text : List Char) :
    Cut begin pos text (escapeOpeners cs)
      (literalPiece (text ++ cs) ⟨begin, pos + byteLength (escapeOpeners cs)⟩) := by
  -- from one opener to the next, behind which the text is shorter
  induction hn : cs.length using Nat.strongRecOn generalizing cs pos text with
  | ind n ih =>
    cases hs : splitOpener cs with
    | none =>
      rw [escapeOpeners_of_none hs]
      exact .text hs
    | some p =>
      obtain ⟨before, behind⟩ := p
      have hcs := splitOpener_append hs
      rw [infix_iff_of_some hs, not_or, not_not] at h
      have hseam : before.getLast? = some '$' → ['\\'].head? ≠ some '\x7b' := fun _ => by simp
      have hbefore : splitOpener (before ++ ['\\']) = none := by
        rw [splitOpener_seam (splitOpener_before hs) hseam]
        rfl
      have hshorter : behind.length < n := by
        rw [← hn, ← hcs, List.length_append, List.length_append]
        have : opener.length = 2 := rfl
        omega
      rw [escapeOpeners_of_some hs]
      refine .escaped (splitOpener_opener hbefore _) (by rw [backslashes_append_one, h.1]) ?_
      have hrest := ih _ hshorter h.2 (pos + byteLength (before ++ ['\\']) + byteLength opener)
        (text ++ before ++ opener) rfl
      rw [List.dropLast_concat, ← hcs]
      simpa only [byteLength_append, List.append_assoc, Nat.add_assoc] using hrest

end Markup

open Markup

theorem literalPiece_of_ne {s : String} (hs : s ≠ "") (span : Span) :
    literalPiece s.toList span = [⟨.literal s, span⟩] := by
  rw [literalPiece, if_neg (mt String.toList_eq_nil_iff.1 hs), String.ofList_toList]

namespace Engine

theorem renderSource_literal {source s : String} {span : Span}
    (h : pieces source = .ok [⟨.literal s, span⟩]) (e : Engine) (fields : List (String × Value)) :
    (e.renderSource source (.object fields)).1 = .ok s := by
  have hcompile : compileSource source = .ok ⟨none, [.literal s]⟩ :=
    Template.compile_eq_ok_iff.2 ⟨_, h, rfl, rfl⟩
  simp only [renderSource, hcompile, renderTemplate, exec, World.render, Host.render,
    Template.renderWith, Renderer.runAll_one, Renderer.run]
  rfl

/-- A text can be written as text if and only if it has no opener behind a backslash. It is written with
a backslash in front of each opener, and renders to itself, whatever the engine and the context are. -/
theorem text_written_out {s : String} (hs : s ≠ "") :
    ((∃ source span, pieces source = .ok [⟨.literal s, span⟩]) ↔
      ¬ escapedOpener <:+: s.toList) ∧
    (¬ escapedOpener <:+: s.toList →
      let source := String.ofList (escapeOpeners s.toList)
      pieces source = .ok [⟨.literal s, 0, byteLength source.toList⟩] ∧
        (∀ name, Template.compile name source = .ok ⟨name, [.literal s]⟩) ∧
        ∀ (e : Engine) fields, (e.renderSource source (.object fields)).1 = .ok s) := by
  have hwritten (hno : ¬ escapedOpener <:+: s.toList) :
      let source := String.ofList (escapeOpeners s.toList)
      pieces source = .ok [⟨.literal s, 0, byteLength source.toList⟩] := by
    have hcut := cut_escapeOpeners hno 0 0 []
    rw [List.nil_append, Nat.zero_add, literalPiece_of_ne hs] at hcut
    intro source
    rw [pieces, String.toList_ofList]
    exact cut_iff.2 hcut
  refine ⟨⟨fun h => ?_, fun hno => ⟨_, _, hwritten hno⟩⟩, fun hno => ?_⟩
  · obtain ⟨source, span, h⟩ := h
    obtain ⟨text, span', hps, hno⟩ := (cut_iff.1 h).unescaped (by simp [Token.directive?])
    rw [List.nil_append, literalPiece] at hps
    split at hps
    · cases hps
    · obtain ⟨⟨htext⟩, -⟩ : s = String.ofList text ∧ span = span' := by simpa using hps
      rwa [String.toList_ofList]
  · have hpieces := hwritten hno
    exact ⟨hpieces, fun name => Template.compile_eq_ok_iff.2 ⟨_, hpieces, rfl, rfl⟩,
      renderSource_literal hpieces⟩

theorem openers_written_out :
    let text := "$$\x7bé\\$x$\x7b$\x7b"
    let source := "$\\$\x7bé\\$x\\$\x7b\\$\x7b"
    ¬ escapedOpener <:+: text.toList ∧ pieces source = .ok [⟨.literal text, 0, 15⟩] ∧
      (empty.renderSource source (.object [("x", .bool true)])).1 = .ok text := by
  intro text source
  have hno : ¬ escapedOpener <:+: text.toList := by decide
  have hsource : String.ofList (escapeOpeners text.toList) = source := by decide
  have hlength : byteLength source.toList = 15 := by decide
  obtain ⟨hpieces, -, hrender⟩ := (@text_written_out text (by decide)).2 hno
  rw [hsource, hlength] at hpieces
  rw [hsource] at hrender
  exact ⟨hno, hpieces, hrender empty _⟩

end Engine

end Stencil
