import Stencil.CommandLine.Outcome
set_option autoImplicit false

namespace Stencil.CommandLine

def faultOf : IO.Error → FileFault
  | .inappropriateType _ code _ => if code = 21 then .folder else .notFolder
  | _ => .missing

def readText (path : String) : IO (Except FileFault String) := do
  try
    match String.fromUTF8? (← IO.FS.readBinFile path) with
    | some text => return .ok text
    | none => return .error .encoding
  catch e => return .error (faultOf e)

def included (source : String) : List String :=
  match Markup.pieces source with
  | .error _ => []
  | .ok ps => ps.filterMap fun p =>
    match p.token with
    | .embed path _ => some path
    | _ => none

/-- The path of a file below the folder: no name in it is empty, and none is a point or two. -/
def isBelow (name : String) : Bool :=
  (name.splitOn "/").all fun part => part ≠ "" && part ≠ "." && part ≠ ".."

partial def readReachable (dir : String) (found : List (String × String)) :
    List String → IO (List (String × String))
  | [] => return found
  | name :: names => do
    if Entries.contains name found || !(name = "" || isBelow name) then
      readReachable dir found names
    else
      match ← readText (if name = "" then dir else dir ++ "/" ++ name) with
      | .ok text => readReachable dir ((name, text) :: found) (included text ++ names)
      | .error _ => readReachable dir found names

def readTemplates (o : Options) : IO (Except FileFault (List (String × String))) := do
  try
    let _ ← IO.FS.realPath o.dir
    return .ok (← readReachable o.dir [] [o.template])
  catch _ => return .error .missing

def readSurroundings (o : Options) : IO Surroundings := do
  let config ← o.config.mapM fun path => readText path
  let context ← o.context.mapM fun path => readText path
  return ⟨config, ← readTemplates o, context⟩

end Stencil.CommandLine

open Stencil.CommandLine in
def main (arguments : List String) : IO UInt32 := do
  let surroundings ← match parse arguments with
    | .ok (.run o) => readSurroundings o
    | _ => pure ⟨none, .ok [], none⟩
  -- Of a span over several lines only the heading is written.
  let result := outcome (fun _ => []) arguments fun _ => surroundings
  IO.print result.output
  IO.eprint (result.complaint.getD "Error: the process is aborted\n")
  return result.code.toUInt32
