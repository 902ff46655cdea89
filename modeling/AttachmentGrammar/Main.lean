import AttachmentGrammar.CommandLine.Run
/-!
The program: it reads the variables and files that a request needs, runs it, and prints the outcome.
-/
namespace AttachmentGrammar

def readState (path : String) : IO FileState := do
  let place := (← IO.currentDir) / path
  if path.isEmpty || !(← place.pathExists) then return .missing
  try
    let contents ← IO.FS.readBinFile place
    return .file contents.toList
  catch _ => return .directory

/-- The first file of variables in this directory or one above it. -/
def readVariables : Nat → String → IO FileState
  | 0, _ => return .missing
  | depth + 1, start => do
    match ← readState (start ++ ".env") with
    | .file contents => return .file contents
    | _ => readVariables depth (start ++ "../")

def readEnvironment : IO Environment := do
  let contents ← IO.FS.readBinFile "/proc/self/environ"
  return .ofAssignments contents.toList

def readFiles (paths : List String) : IO Files := do
  let states ← paths.mapM fun path => return (path, ← readState path)
  return fun path => (states.lookup path).getD .missing

def report : Option Outcome → IO UInt32
  | none => do
    IO.eprintln "Usage: deprules [OPTIONS] <check|render|validate|version>"
    return 2
  | some outcome => do
    IO.print outcome.output
    outcome.noteLines.forM IO.eprintln
    return outcome.code

end AttachmentGrammar

open AttachmentGrammar

def main (words : List String) : IO UInt32 := do
  let here ← IO.currentDir
  let variableFile ← readVariables (here.components.length + 1) ""
  let request := Request.of variableFile (← readEnvironment) words
  let paths := match request with
    | .session s => s.paths
    | _ => []
  report (request.run? (← readFiles paths))
