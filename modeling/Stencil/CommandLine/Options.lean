set_option autoImplicit false

namespace Stencil.CommandLine

inductive Switch where
  | dir
  | context
  | config
  | tokens
  | help
  deriving DecidableEq, Repr

namespace Switch

def all : List Switch := [.dir, .context, .config, .tokens, .help]

def name : Switch → String
  | .dir => "dir"
  | .context => "context"
  | .config => "config"
  | .tokens => "tokens"
  | .help => "help"

def letter? : Switch → Option Char
  | .dir => some 'd'
  | .context => some 'c'
  | .help => some 'h'
  | .config | .tokens => none

def takesValue : Switch → Bool
  | .dir | .context | .config => true
  | .tokens | .help => false

def ofName? (name : String) : Option Switch := all.find? fun s => s.name = name

def ofLetter? (c : Char) : Option Switch := all.find? fun s => s.letter? = some c

def shown (s : Switch) : String :=
  if s.takesValue then "--" ++ s.name ++ " <" ++ s.name.toUpper ++ ">" else "--" ++ s.name

end Switch

structure Options where
  template : String
  dir : String := "."
  context : Option String := none
  config : Option String := none
  tokens : Bool := false
  deriving DecidableEq, Repr

inductive Request where
  | help
  | run (options : Options)
  deriving DecidableEq, Repr

inductive UsageError where
  | unexpected (argument : String)
  | unexpectedValue (switch : Switch) (value : String)
  | missingValue (switch : Switch)
  | repeated (switch : Switch)
  | missingTemplate
  deriving DecidableEq, Repr

structure Reading where
  switches : List (Switch × String) := []
  template : Option String := none
  deriving DecidableEq, Repr

namespace Reading

def value? (r : Reading) (s : Switch) : Option String :=
  (r.switches.find? fun e => e.1 = s).map Prod.snd

/-- A switch is given once, and a path is not empty. -/
def switch (r : Reading) (s : Switch) (value : String) : Except UsageError Reading :=
  if (r.value? s).isSome then .error (.repeated s)
  else if s.takesValue && value.isEmpty then .error (.missingValue s)
  else .ok { r with switches := (s, value) :: r.switches }

def name (r : Reading) (argument : String) : Except UsageError Reading :=
  match r.template with
  | none => .ok { r with template := some argument }
  | some _ => .error (.unexpected argument)

def finish (r : Reading) : Except UsageError Request :=
  match r.template with
  | none => .error .missingTemplate
  | some t =>
    .ok (.run
      { template := t
        dir := (r.value? .dir).getD "."
        context := r.value? .context
        config := r.value? .config
        tokens := (r.value? .tokens).isSome })

end Reading

inductive Form where
  | separator
  | long (name : String) (value : Option String)
  | short (letter : Char) (value : Option String)
  | name
  deriving DecidableEq, Repr

def Form.of (argument : String) : Form :=
  match argument.toList with
  | ['-', '-'] => .separator
  | '-' :: '-' :: cs =>
    let name := String.ofList (cs.takeWhile (· ≠ '='))
    match cs.dropWhile (· ≠ '=') with
    | _ :: value => .long name (some (String.ofList value))
    | [] => .long name none
  | '-' :: c :: '=' :: value => .short c (some (String.ofList value))
  | '-' :: c :: d :: value => .short c (some (String.ofList (d :: value)))
  | ['-', c] => .short c none
  | _ => .name

def positional (r : Reading) : List String → Except UsageError Request
  | [] => r.finish
  | argument :: rest => do positional (← r.name argument) rest

def parseFrom (r : Reading) : List String → Except UsageError Request
  | [] => r.finish
  | argument :: rest =>
    let found : Option (Switch × Option String × Bool) :=
      match Form.of argument with
      | .long name value => (Switch.ofName? name).map fun s => (s, value, true)
      | .short letter value => (Switch.ofLetter? letter).map fun s => (s, value, false)
      | .separator | .name => none
    match Form.of argument, found with
    | .separator, _ => positional r rest
    | .name, _ => do parseFrom (← r.name argument) rest
    | _, none => .error (.unexpected argument)
    | _, some (.help, some value, true) => .error (.unexpectedValue .help value)
    | _, some (.help, _) => .ok .help
    | _, some (.tokens, some value, _) => .error (.unexpectedValue .tokens value)
    | _, some (.tokens, none, _) => do parseFrom (← r.switch .tokens "") rest
    | _, some (s, some value, _) => do parseFrom (← r.switch s value) rest
    | _, some (s, none, _) =>
      match rest with
      | [] => .error (.missingValue s)
      | value :: rest =>
        if Form.of value = .name then do parseFrom (← r.switch s value) rest
        else .error (.missingValue s)

def parse (arguments : List String) : Except UsageError Request := parseFrom {} arguments

theorem parse_positional (argument : String) :
    parse ["--", argument] = .ok (.run { template := argument }) := by
  have : Form.of "--" = .separator := by decide
  simp only [parse, parseFrom, this]
  rfl

def usage : String := "Usage: tpl [OPTIONS] <TEMPLATE>\n"

def help : String :=
  "Render text templates against a JSON context\n\n" ++ usage ++ "\n" ++
  "Arguments:\n" ++
  "  <TEMPLATE>  Template name, relative to the template directory\n\n" ++
  "Options:\n" ++
  "  -d, --dir <DIR>          Directory whose files are loaded as templates [default: .]\n" ++
  "  -c, --context <CONTEXT>  JSON file used as the render context\n" ++
  "      --config <CONFIG>    Engine configuration file (TOML format)\n" ++
  "      --tokens             Print the token stream of the template and exit\n" ++
  "  -h, --help               Print help\n"

def UsageError.message : UsageError → String
  | .unexpected a => "unexpected argument '" ++ a ++ "' found"
  | .unexpectedValue s v =>
    "unexpected value '" ++ v ++ "' for '" ++ s.shown ++ "' found; no more were expected"
  | .missingValue s => "a value is required for '" ++ s.shown ++ "' but none was supplied"
  | .repeated s => "the argument '" ++ s.shown ++ "' cannot be used multiple times"
  | .missingTemplate => "the following required arguments were not provided:\n  <TEMPLATE>"

def UsageError.text (e : UsageError) : String :=
  "error: " ++ e.message ++ "\n\n" ++ usage ++ "\nFor more information, try '--help'.\n"

end Stencil.CommandLine
