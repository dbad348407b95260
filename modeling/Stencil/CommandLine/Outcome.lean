import Stencil.CommandLine.FileTree
import Stencil.CommandLine.Options
import Stencil.Engine.Diagnostic
import Stencil.Engine.SettingsText
import Stencil.Value.Reader
set_option autoImplicit false

/-!
# Outcome of the command

What the command writes, given its options and what the files hold that they name. The first fault in
this order is reported: settings, folder of templates, name of the template, context, and the
template itself.
-/

namespace Stencil.CommandLine

structure Surroundings where
  config : Option (Except FileFault String)
  templates : Except FileFault (List (String × String))
  context : Option (Except FileFault String)

def Surroundings.ofTree (t : FileTree) (o : Options) : Surroundings :=
  ⟨o.config.map t.read, t.texts o.dir, o.context.map t.read⟩

inductive Failure where
  | complaint (text : String)
  | aborted
  deriving DecidableEq, Repr

def Failure.ofText? : Option String → Failure
  | some text => .complaint text
  | none => .aborted

/-- The two texts that are written, and the exit code. What is written when a process is aborted is left out. -/
structure Outcome where
  code : Nat
  output : String
  complaint : Option String
  deriving DecidableEq, Repr

namespace Outcome

def success (output : String) : Outcome := ⟨0, output, some ""⟩

def ofExcept : Except Failure String → Outcome
  | .ok output => .success output
  | .error (.complaint text) => ⟨1, "", some text⟩
  | .error .aborted => ⟨101, "", none⟩

end Outcome

def readSettings (path : String) (content : Except FileFault String) : Except String Settings :=
  let fault (reason : String) := "Error loading config '" ++ path ++ "': " ++ reason ++ "\n"
  match content with
  | .error f => .error (fault ("Failed to read config file: " ++ f.message))
  | .ok text =>
    match Settings.ofText? text with
    | some s => .ok s
    | none => .error (fault "Failed to parse config TOML: these are no settings")

def readContext (path : String) (content : Except FileFault String) : Except String Value :=
  let fault (reason : String) := "Error reading context '" ++ path ++ "': " ++ reason ++ "\n"
  match content with
  | .error f => .error (fault f.message)
  | .ok text =>
    match Json.document text with
    | .ok v => .ok v
    | .error f => .error (fault (f.message text))

def loadEngine (o : Options) (s : Surroundings) : Except String Engine := do
  let settings ← match o.config, s.config with
    | some path, some content => readSettings path content
    | _, _ => .ok {}
  match s.templates with
  | .ok sources => .ok ((Engine.ofSettings settings).setRegistry (Registry.ofList sources))
  | .error f =>
    .error ("Error reading templates from '" ++ o.dir ++ "': IO error for operation on " ++ o.dir ++
      ": " ++ f.message ++ "\n")

section

variable (across : Report → List String)

def listTokens (name source : String) : Except Failure String :=
  match Markup.pieces source with
  | .ok ps => .ok (String.join (ps.map fun p => p.span.text ++ "\t" ++ p.token.describe ++ "\n"))
  | .error e => .error (.ofText? ((Diagnostic.ofCompileError name source e).text? across))

/-- How an error of the render is reported: with its place, or else in one line. -/
def complain (e : Engine) (name : String) : Halt → Failure
  | .error x =>
    match e.diagnose name x with
    | some d => .ofText? (d.text? across)
    | none => .complaint ("Error: " ++ x.message ++ "\n")
  | .exhausted => .complaint "Error: includes without end\n"

def output (o : Options) (s : Surroundings) : Except Failure String := do
  let e ← (loadEngine o s).mapError .complaint
  let some source := e.get? o.template
    | .error (.complaint ("Error: template '" ++ o.template ++ "' not found in '" ++ o.dir ++ "'\n"))
  if o.tokens then listTokens across o.template source
  else
    let context ← match o.context, s.context with
      | some path, some content => (readContext path content).mapError .complaint
      | _, _ => .ok (.object [])
    let (result, e) := e.render o.template context
    result.mapError (complain across e o.template)

/-- The outcome of a run with these arguments, where `look` tells what the files hold. -/
def outcome (arguments : List String) (look : Options → Surroundings) : Outcome :=
  match parse arguments with
  | .error e => ⟨2, "", some e.text⟩
  | .ok .help => .success help
  | .ok (.run o) => .ofExcept (output across o (look o))

end

end Stencil.CommandLine
