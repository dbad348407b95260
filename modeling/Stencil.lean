import Stencil.CommandLine.FileTree
import Stencil.CommandLine.Options
import Stencil.CommandLine.Outcome
import Stencil.Engine.Basic
import Stencil.Engine.Composition
import Stencil.Engine.Diagnostic
import Stencil.Engine.Error
import Stencil.Engine.Registry
import Stencil.Engine.Render
import Stencil.Engine.Settings
import Stencil.Engine.SettingsText
import Stencil.Eval.Basic
import Stencil.Eval.Error
import Stencil.Eval.Functions
import Stencil.Eval.Operators
import Stencil.Eval.Scope
import Stencil.Expr.Basic
import Stencil.Expr.Lexer
import Stencil.Expr.Parser
import Stencil.Expr.SyntaxError
import Stencil.Expr.Token
import Stencil.Main
import Stencil.Markup.Error
import Stencil.Markup.Slot
import Stencil.Markup.Source
import Stencil.Markup.Token
import Stencil.Number.Basic
import Stencil.Number.Binary64
import Stencil.Number.Decimal
import Stencil.Number.Digits
import Stencil.Program.Blocks
import Stencil.Program.Expression
import Stencil.Program.Instruction
import Stencil.Text.Blank
import Stencil.Text.CaseTable
import Stencil.Text.LetterCase
import Stencil.Text.Lines
import Stencil.Text.Order
import Stencil.Text.Quoted
import Stencil.Text.Ranges
import Stencil.Text.Span
import Stencil.Text.Unseen
import Stencil.Text.Width
import Stencil.Text.WidthTable
import Stencil.Toml.Statement
import Stencil.Toml.Text
import Stencil.Value.Basic
import Stencil.Value.Entries
import Stencil.Value.Iteration
import Stencil.Value.Json
import Stencil.Value.Reader
import Stencil.Proofs.Program.Assembly
import Stencil.Proofs.Expr.Grammar
import Stencil.Proofs.Expr.Soundness
import Stencil.Proofs.Expr.Completeness
import Stencil.Proofs.Render.Simulation
import Stencil.Proofs.Engine.Catalogue
import Stencil.Proofs.Engine.Calls
import Stencil.Proofs.Engine.History
import Stencil.Proofs.Eval.Names
import Stencil.Proofs.Render.FreeNames
import Stencil.Proofs.Engine.Inlining
import Stencil.Proofs.Markup.BareSlots
import Stencil.Proofs.Engine.Concatenation
import Stencil.Proofs.Markup.Coverage
import Stencil.Proofs.Engine.Printing
import Stencil.Proofs.Engine.Undefined
import Stencil.Proofs.Engine.Depth
import Stencil.Proofs.Engine.Limits
import Stencil.Proofs.Text.Boundaries
import Stencil.Proofs.Expr.Places
import Stencil.Proofs.Markup.Payloads
import Stencil.Proofs.Program.Expressions
import Stencil.Proofs.Markup.Faults
import Stencil.Proofs.Program.CompileErrors
import Stencil.Proofs.Engine.Headings
import Stencil.Proofs.Engine.Leaves
import Stencil.Proofs.Engine.Blame
import Stencil.Proofs.Markup.TickedSlots
import Stencil.Proofs.Program.Mending
import Stencil.Proofs.Engine.Mending
import Stencil.Proofs.Engine.Drawings
import Stencil.Proofs.Expr.Beginnings
import Stencil.Proofs.Expr.TokenTexts
import Stencil.Proofs.Expr.SyntaxErrors
import Stencil.Proofs.Expr.Writing
import Stencil.Proofs.Program.Misnesting
import Stencil.Proofs.Expr.Spacing
import Stencil.Proofs.Markup.Offsets
import Stencil.Proofs.Markup.Spellings
import Stencil.Proofs.Engine.Verbatim
import Stencil.Proofs.Engine.Registered
import Stencil.Proofs.Value.Equality
import Stencil.Proofs.Program.Chains
import Stencil.Proofs.Engine.Chains
import Stencil.Proofs.Engine.ItemTexts
import Stencil.Proofs.Eval.Comparisons
import Stencil.Proofs.Eval.WellFormed
import Stencil.Proofs.Number.Numerals
import Stencil.Proofs.Value.Forms
import Stencil.Proofs.Eval.Arithmetic
import Stencil.Proofs.Eval.Ordering
import Stencil.Proofs.Eval.Collections
