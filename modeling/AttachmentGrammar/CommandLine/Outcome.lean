import AttachmentGrammar.Environment
import AttachmentGrammar.Grammar.Finding
import AttachmentGrammar.Graph.Edit
/-!
How a command ends: the text it puts out, the lines it notes beside it, and the error that it ends
with if it fails.
-/
namespace AttachmentGrammar

inductive CommandError where
  | settings (cause : SettingsError)
  | noGrammar
  | unreadable (path : String)
  | classList (path : String)
  | graphDocument (path : String)
  | graph (cause : GraphError)
  | rejectedGrammar
  | violations (count : Nat)
  deriving DecidableEq, Repr

namespace CommandError

def message : CommandError → String
  | settings _ => "invalid DEPRULES_* environment"
  | noGrammar => "no grammar given; pass --grammar or set DEPRULES_GRAMMAR"
  | unreadable path => s!"failed to read {path}"
  | classList path => s!"invalid class list {path}"
  | graphDocument path => s!"invalid graph document {path}"
  | graph cause => cause.message
  | rejectedGrammar => "grammar rejected"
  | violations count => s!"graph has {count} violation(s)"

/-- What is wrong with a file that an error names. -/
def detail? : CommandError → Option String
  | unreadable _ => some "there is no such file of text"
  | classList _ => some "expected a list of names"
  | graphDocument _ => some "expected an object with nodes and edges"
  | _ => none

/-- The causes, outermost first. -/
def causes : CommandError → List String
  | settings cause => cause.message :: cause.cause?.toList
  | _ => []

/-- A cause is numbered unless it is the only one. -/
def causeLines : List String → List String
  | [] => []
  | [cause] => ["", "Caused by:", s!"    {cause}"]
  | causes => "" :: "Caused by:" :: causes.zipIdx.map fun (cause, n) => s!"    {n}: {cause}"

def lines (e : CommandError) : List String :=
  match e.detail? with
  | some detail => [s!"Error: {e.message}: {detail}"]
  | none => s!"Error: {e.message}" :: causeLines e.causes

end CommandError

structure Outcome where
  output : String
  notes : List String
  error : Option CommandError
  deriving DecidableEq, Repr

namespace Outcome

def code (o : Outcome) : UInt32 := if o.error.isSome then 1 else 0

def noteLines (o : Outcome) : List String := o.notes ++ (o.error.map CommandError.lines).getD []

end Outcome

end AttachmentGrammar
