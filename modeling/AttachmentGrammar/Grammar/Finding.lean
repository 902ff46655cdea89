import AttachmentGrammar.Role
import AttachmentGrammar.Rule.Parser
/-!
What reading and compiling a grammar can report: warnings, compile errors, and the failures that
end with no grammar.
-/
namespace AttachmentGrammar

inductive Warning where
  | unmatchedPattern (line : Nat) (side : Side) (pattern : String)
  | unsatisfiableBound (line : Nat) (className : String) (role : Role String) (bound : Cardinality)
  deriving DecidableEq, Repr

def unmatchedMessage (line : Nat) (side : Side) (pattern : String) : String :=
  s!"line {line}: {side.describe} pattern `{pattern}` matches no known class"

namespace Warning

def line : Warning → Nat
  | unmatchedPattern line _ _ | unsatisfiableBound line _ _ _ => line

def message : Warning → String
  | unmatchedPattern line side pattern => unmatchedMessage line side pattern
  | unsatisfiableBound line className role bound =>
    s!"line {line}: `{className}` is bounded {bound} as {role} but no rule lets it attach that way"

end Warning

inductive CompileError where
  | unmatchedPattern (line : Nat) (side : Side) (pattern : String)
  | conflictingCardinality (className : String) (role : Role String) (existing : Cardinality)
      (existingLines : List Nat) (incoming : Cardinality) (incomingLine : Nat)
  | orphanCardinality (className : String) (role : Role String) (bound : Cardinality) (line : Nat)
  deriving DecidableEq, Repr

def CompileError.message : CompileError → String
  | unmatchedPattern line side pattern => unmatchedMessage line side pattern
  | conflictingCardinality className role existing existingLines incoming incomingLine =>
    let lines := ", ".intercalate (existingLines.map toString)
    s!"conflicting cardinality for `{className}` as {role}: {existing} (line(s) {lines}) and " ++
      s!"{incoming} (line {incomingLine}) do not overlap"
  | orphanCardinality className role bound line =>
    s!"line {line}: `{className}` is bounded {bound} as {role} but no rule lets it attach that way"

inductive GrammarError where
  | missingPath (path : String)
  | unreadable (path : String)
  | malformed (errors : List ParseError)
  | inconsistent (errors : List CompileError)
  | unregistered (name : String)
  deriving DecidableEq, Repr

namespace GrammarError

def first (messages : List String) : String := messages.headD ""

def message : GrammarError → String
  | missingPath path => s!"grammar path does not exist: {path}"
  | unreadable path => s!"failed to read grammar input from {path}"
  | malformed errors =>
    s!"grammar source has {errors.length} syntax error(s); first: " ++
      first (errors.map ParseError.message)
  | inconsistent errors =>
    s!"grammar failed to compile with {errors.length} error(s); first: " ++
      first (errors.map CompileError.message)
  | unregistered name => s!"no grammar registered under name: {name}"

/-- The single errors, where a failure is made of several. -/
def details : GrammarError → List String
  | malformed errors => errors.map ParseError.message
  | inconsistent errors => errors.map CompileError.message
  | missingPath _ | unreadable _ | unregistered _ => []

end GrammarError

end AttachmentGrammar
