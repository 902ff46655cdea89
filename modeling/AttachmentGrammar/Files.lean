import AttachmentGrammar.Text.Utf8
/-!
What a path leads to, and a tree of files that answers for paths below one directory.
-/
namespace AttachmentGrammar

inductive FileState where
  | missing
  | directory
  | file (contents : Text.Bytes)
  deriving DecidableEq, Repr

namespace FileState

def isPresent : FileState → Bool
  | missing => false
  | directory | file _ => true

def text? : FileState → Option String
  | missing | directory => none
  | file contents => Text.decode? contents

def contents? : FileState → Option Text.Bytes
  | missing | directory => none
  | file contents => some contents

end FileState

/-- The state of the file that each path leads to. -/
abbrev Files := String → FileState

/-- The last name of a path; a path that ends with a step up has none. -/
def fileName? (path : List Char) : Option (List Char) :=
  let names := (path.splitOn '/').filter fun name => name ≠ [] ∧ name ≠ ['.']
  names.getLast?.filter (· ≠ ['.', '.'])

/-- The part of the last name after its last dot; a dot in front of the whole name starts none. -/
def extension? (path : List Char) : Option (List Char) := do
  let name ← fileName? path
  match (name.splitOn '.').reverse with
  | [] | [_] | [_, []] => none
  | last :: _ => some last

def hasExtension (path : String) (wanted : List String) : Bool :=
  (extension? path.toList).any fun found =>
    wanted.contains (String.ofList (found.map Char.toLower))

/-- Files by path from the top directory, with a stroke between names; of several with one place the
last counts. -/
structure FileTree where
  files : List (String × Text.Bytes)

namespace FileTree

def pathNames (path : String) : List (List Char) := path.toList.splitOn '/'

def isStay (name : List Char) : Bool := name = [] || name = ['.']

def isStep (name : List Char) : Bool := isStay name || name = ['.', '.']

/-- A place is the names that lead to it from the top, the last one first. -/
abbrev Place := List (List Char)

/-- The directories that names lead through from a place, and the place where they end. -/
def trail : Place → List (List Char) → List Place × Place
  | reached, [] => ([], reached)
  | reached, name :: names =>
    let next :=
      if isStay name then reached
      else if name = ['.', '.'] then reached.drop 1
      else name :: reached
    let (passed, last) := trail next names
    (reached :: passed, last)

def lookup (t : FileTree) (place : Place) : FileState :=
  let files := t.files.map fun (path, contents) => (trail [] (pathNames path), contents)
  match files.reverse.find? fun (route, _) => route.2 = place with
  | some (_, contents) => .file contents
  | none =>
    if place = [] ∨ files.any fun (route, _) => route.1.contains place then .directory
    else .missing

/-- Above the top there are only directories, and of them only those that steps up reach. -/
def outside (names : List (List Char)) : FileState :=
  if names.all isStep then .directory else .missing

/-- Follows the names of a path from the place reached so far. -/
def walk (t : FileTree) : Place → List (List Char) → FileState
  | reached, [] => t.lookup reached
  | reached, name :: names =>
    match t.lookup reached with
    | .directory =>
      if isStay name then t.walk reached names
      else if name = ['.', '.'] then
        match reached with
        | [] => outside names
        | _ :: above => t.walk above names
      else t.walk (name :: reached) names
    | _ => .missing

/-- The empty path leads nowhere, and neither does one of 4096 bytes or more. -/
def read (t : FileTree) : Files := fun path =>
  if path.isEmpty ∨ 4096 ≤ path.utf8ByteSize then .missing
  else if path.toList.head? = some '/' then outside (pathNames path)
  else t.walk [] (pathNames path)

end FileTree

end AttachmentGrammar
