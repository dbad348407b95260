import Stencil.Engine.Basic
import Stencil.Proofs.Expr.Quotation
import Stencil.Proofs.Markup.BareSlots
import Stencil.Proofs.Render.Simulation
set_option autoImplicit false

namespace Stencil

open Text Markup

namespace Run

variable {σ α β : Type}

theorem ofEval_bind (x : Except RenderError α) (f : α → Except RenderError β) :
    (ofEval (x >>= f) : Run σ β) = ofEval x >>= fun a => ofEval (f a) := by
  cases x <;> rfl

theorem exec_ofEval (x : Except RenderError α) (s : σ) :
    (ofEval x).exec s = (x.mapError fun err => .error (.render err), s) := by
  cases x <;> rfl

end Run

namespace Renderer

variable {σ : Type} (r : Renderer σ) (scope : Scope)

theorem runAll_one (i : Instruction) : r.runAll scope [i] = r.run scope i := by
  simp only [runAll, pure_bind, String.append_empty, bind_pure]

theorem run_print {e : Expression} {x : Expr} (h : e.parsed = .ok x) :
    r.run scope (.print e) = Run.ofEval (x.eval r.setting scope >>= Value.print) := by
  simp only [run, eval, Expression.eval, Expression.tree, h, Run.ofEval_bind]
  rfl

end Renderer

namespace Engine

section

variable {source : String} {x : Expr} (hx : Expr.parse source = .ok x)

include hx

theorem parsed_alone : (Expression.ofPayload (Usage.alone.payload source)).parsed = .ok x := by
  rw [Expression.ofPayload, Expression.compile, Usage.payload, Expr.parse_trim hx]
  rfl

theorem compileSource_alone (hu : Usage.alone.Admits source) :
    compileSource ("$\x7b" ++ source ++ "\x7d") =
      .ok ⟨none, [.print (.ofPayload (Usage.alone.payload source))]⟩ := by
  obtain ⟨s, hs, ht, hr⟩ := read_usage hx hu []
  have hsource : ("$\x7b" ++ source ++ "\x7d").toList =
      opener ++ (Usage.alone.lead.toList ++ (source.toList ++ ['\x7d'])) := by
    simp [Usage.lead, opener]
  have hnone : splitOpener [] = none := rfl
  have hpieces := piecesFrom_opener hs ht
  rw [hr, ← hsource, piecesFrom_of_none hnone] at hpieces
  rw [compileSource, Template.compile, pieces, hpieces]
  rfl

theorem renderSource_alone (hu : Usage.alone.Admits source) (e : Engine)
    (fields : List (String × Value)) :
    (e.renderSource ("$\x7b" ++ source ++ "\x7d") (.object fields)).1 =
      (x.eval e.world.host.setting (Scope.ofContext fields) >>= Value.print).mapError
        fun err => .error (.render err) := by
  simp only [renderSource, compileSource_alone hx hu, renderTemplate, exec, World.render,
    Host.render, Template.renderWith, Renderer.runAll_one,
    Renderer.run_print _ _ (parsed_alone hx), Run.exec_ofEval]

end

/-- A string literal of any text is one token, and in a slot it prints the text, whatever the engine and
the context are. -/
theorem text_printed_by_literal {quote : Char} (hq : quote = '"' ∨ quote = '\'') (text : String) :
    let literal := Expr.stringLiteral quote text
    Expr.lex literal = [⟨.string text, 0, byteLength literal.toList⟩] ∧
      ∀ (e : Engine) (fields : List (String × Value)),
        (e.renderSource ("$\x7b" ++ literal ++ "\x7d") (.object fields)).1 = .ok text := by
  intro literal
  have hlex := Expr.lex_stringLiteral hq text
  refine ⟨hlex, fun e fields => ?_⟩
  have hu : Usage.alone.Admits literal := by
    intro name hname
    rw [Expr.tokens, ← Expr.lex, hlex] at hname
    cases hname
  rw [renderSource_alone (Expr.parse_stringLiteral hq text) hu]
  rfl

theorem opener_printed_by_literal :
    let literal := "'\\'\\\\\n$\x7b'"
    Expr.stringLiteral '\'' "'\\\n$\x7b" = literal ∧
      Expr.lex literal = [⟨.string "'\\\n$\x7b", 0, 9⟩] ∧
      (empty.renderSource ("$\x7b" ++ literal ++ "\x7d") (.object [])).1 = .ok "'\\\n$\x7b" := by
  intro literal
  have hl : Expr.stringLiteral '\'' "'\\\n$\x7b" = literal := by decide
  have hlength : byteLength literal.toList = 9 := by decide
  obtain ⟨hlex, hprint⟩ := text_printed_by_literal (.inr rfl) "'\\\n$\x7b"
  rw [hl] at hlex hprint
  rw [hlength] at hlex
  exact ⟨hl, hlex, hprint empty []⟩

end Engine

end Stencil
