import AttachmentGrammar.Files
import AttachmentGrammar.Grammar.Compile
/-!
Reading grammars from files.
-/
namespace AttachmentGrammar

def rulesOfFile (path : String) (state : FileState) : Except GrammarError (List Rule) :=
  if state.isPresent then
    match state.text? with
    | none => .error (.unreadable path)
    | some text => (parseRules text).mapError .malformed
  else .error (.missingPath path)

def grammarOfFile (path : String) (state : FileState) (v : Vocabulary) (strict : Bool) :
    Except GrammarError Compilation := do
  let rules ← rulesOfFile path state
  (compile rules v strict).mapError .inconsistent

/-- The classes that the rules name literally. -/
def Vocabulary.ofRules (rules : List Rule) : Vocabulary :=
  .ofNames (((rules.flatMap fun r => r.statement.sources ++ r.statement.targets).filter
    fun t => !t.pattern.hasWildcard).map fun t => t.pattern.text)

end AttachmentGrammar
