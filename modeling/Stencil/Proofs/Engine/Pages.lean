import Stencil.Engine.Basic
set_option autoImplicit false

namespace Stencil

inductive Page where
  | compiled (t : Template)
  | named (name : String)
  | source (text : String)

namespace Engine

def renderPage (e : Engine) (page : Page) (context : Value) : Except Halt String × Engine :=
  match page with
  | .compiled t => e.renderTemplate t context
  | .named name => e.render name context
  | .source text => e.renderSource text context

/-- The template that the render begins with. Of the three only a name is looked up. -/
def openPage (e : Engine) : Page → Except CompileError Template × Engine
  | .compiled t => (.ok t, e)
  | .named name =>
    let (result, e) := e.compile name
    (result.map Compiled.template, e)
  | .source text => (compileSource text, e)

theorem renderPage_eq (e : Engine) (page : Page) (context : Value) :
    e.renderPage page context =
      match e.openPage page with
      | (.ok t, e) => e.renderTemplate t context
      | (.error cause, e) => (.error (.error (.compile cause)), e) := by
  cases page with
  | compiled t => rfl
  | named name =>
    simp only [renderPage, render, openPage]
    rcases e.compile name with ⟨cause | c, e'⟩ <;> rfl
  | source text =>
    simp only [renderPage, renderSource, openPage]
    cases compileSource text <;> rfl

theorem openPage_world (e : Engine) (page : Page) : (e.openPage page).2.world = e.world := by
  cases page <;> rfl

end Engine

end Stencil
