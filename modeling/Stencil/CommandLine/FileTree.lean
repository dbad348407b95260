import Stencil.Value.Entries
set_option autoImplicit false

namespace Stencil

inductive FileFault where
  | missing
  | notFolder
  | folder
  | encoding
  deriving DecidableEq, Repr

def FileFault.message : FileFault → String
  | .missing => "No such file or directory (os error 2)"
  | .notFolder => "Not a directory (os error 20)"
  | .folder => "Is a directory (os error 21)"
  | .encoding => "stream did not contain valid UTF-8"

inductive FileTree where
  | file (content : ByteArray)
  | folder (entries : List (String × FileTree))

namespace FileTree

def empty : FileTree := .folder []

def single (content : ByteArray) : List String → FileTree
  | [] => .file content
  | name :: path => .folder [(name, single content path)]

def insert (content : ByteArray) : List String → FileTree → FileTree
  | [], _ => .file content
  | name :: path, .folder es =>
    let below := match Entries.get? name es with
      | some t => insert content path t
      | none => single content path
    .folder (Entries.insert name below es)
  | name :: path, .file _ => single content (name :: path)

/-- Follows the names from `t`, above which lie the folders `above`, the nearest first. -/
def followFrom (above : List FileTree) (t : FileTree) : List String → Except FileFault FileTree
  | [] => .ok t
  | name :: path =>
    match t with
    | .file _ => .error .notFolder
    | .folder es =>
      if name = "" || name = "." then followFrom above t path
      else if name = ".." then
        match above with
        | [] => .error .missing
        | up :: above => followFrom above up path
      else
        match Entries.get? name es with
        | none => .error .missing
        | some below => followFrom (t :: above) below path

def follow (t : FileTree) (path : String) : Except FileFault FileTree :=
  match path.splitOn "/" with
  | "" :: _ => .error .missing
  | names => followFrom [] t names

def read (t : FileTree) (path : String) : Except FileFault String := do
  match ← t.follow path with
  | .folder _ => .error .folder
  | .file content =>
    match String.fromUTF8? content with
    | some text => .ok text
    | none => .error .encoding

mutual

/-- The texts in the tree under their paths, which begin with the names in `path`, the last one
first. Files that are no text are left out. -/
def textsBelow (path : List String) : FileTree → List (String × String)
  | .file content =>
    match String.fromUTF8? content with
    | some text => [("/".intercalate path.reverse, text)]
    | none => []
  | .folder es => textsIn path es

def textsIn (path : List String) : List (String × FileTree) → List (String × String)
  | [] => []
  | (name, t) :: es => textsBelow (name :: path) t ++ textsIn path es

end

def texts (t : FileTree) (path : String) : Except FileFault (List (String × String)) :=
  (t.follow path).map (textsBelow [])

end FileTree

end Stencil
