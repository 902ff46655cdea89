import AttachmentGrammar.CommandLine.Arguments
import AttachmentGrammar.CommandLine.Outcome
import AttachmentGrammar.EnvironmentFile
import AttachmentGrammar.Grammar.Load
import AttachmentGrammar.Graph.Json
import AttachmentGrammar.Graph.Yaml
import AttachmentGrammar.Json.Printer
import AttachmentGrammar.Report.Json
import AttachmentGrammar.Validation
/-!
Running a command. A session is what the arguments and the settings come to; it reads the rules,
then the classes, and a graph only once the grammar has compiled.
-/
namespace AttachmentGrammar

structure Session where
  grammar : Option String
  classes : Option String
  strict : Bool
  command : Command
  deriving DecidableEq, Repr

/-- A command that ends early, with the lines noted so far. -/
structure Stop where
  notes : List String
  error : CommandError
  deriving DecidableEq, Repr

namespace Stop

def of (error : CommandError) : Stop := ⟨[], error⟩

def ofGrammarError (e : GrammarError) : Stop where
  notes := s!"✘ Grammar rejected: {e.message}" :: e.details.map fun line => "  " ++ line
  error := .rejectedGrammar

def after (notes : List String) (s : Stop) : Stop := { s with notes := notes ++ s.notes }

def outcome (s : Stop) : Outcome := ⟨"", s.notes, some s.error⟩

end Stop

def readText (files : Files) (path : String) : Except Stop String :=
  match (files path).text? with
  | none => .error (.of (.unreadable path))
  | some text => .ok text

def readVocabulary (files : Files) (path : String) : Except Stop Vocabulary := do
  let text ← readText files path
  if hasExtension path ["json"] then
    match (Json.parse? text).bind fun j => j.listOf? Json.text? with
    | none => .error (.of (.classList path))
    | some names => return .ofNames names
  else return .ofClassList text

def parseDocument? (path text : String) : Option Document :=
  if hasExtension path ["yaml", "yml"] then (Yaml.parse? text).bind Document.ofYaml?
  else (Json.parse? text).bind Document.ofJson?

def readGraph (files : Files) (path : String) : Except Stop Graph := do
  let text ← readText files path
  match parseDocument? path text with
  | none => .error (.of (.graphDocument path))
  | some document => (Graph.ofDocument document).mapError fun e => .of (.graph e)

namespace Session

/-- A path from the command line comes before one from the settings. -/
def ofSettings (settings : Settings) (arguments : Arguments) : Session where
  grammar := arguments.options.grammar.or settings.grammarPath
  classes := arguments.options.classes.or settings.classesPath
  strict := settings.strictPatterns || arguments.options.strict
  command := arguments.command

def rules (s : Session) (files : Files) : Except Stop (List Rule) :=
  match s.grammar with
  | none => .error (.of .noGrammar)
  | some path => (rulesOfFile path (files path)).mapError .ofGrammarError

/-- Without a class list the classes are those that the rules name. -/
def vocabulary (s : Session) (files : Files) (rules : List Rule) : Except Stop Vocabulary :=
  match s.classes with
  | none => .ok (.ofRules rules)
  | some path => readVocabulary files path

def compiled (s : Session) (files : Files) : Except Stop Compilation := do
  let rules ← s.rules files
  let vocabulary ← s.vocabulary files rules
  (compile rules vocabulary s.strict).mapError fun errors => .ofGrammarError (.inconsistent errors)

end Session

def warningLines (warnings : List Warning) : List String :=
  warnings.map fun w => "warning: " ++ w.message

def joinLines (lines : List String) : String := String.join (lines.map (· ++ "\n"))

namespace Grammar

def summary (g : Grammar) : List String :=
  [s!"✔ Grammar compiled: {g.ruleCount} rule(s), {g.vocabulary.size} class(es)",
    s!"  Allowed pairs: {g.relation.count}",
    s!"  Cardinality bounds: {g.boundCount}"]

def boundLines (g : Grammar) : List String :=
  g.declaredBounds.map fun (className, role, range) => s!"  {className} as {role}: {range}"

end Grammar

def Report.summary (r : Report) : List String :=
  if r.isValid then ["✔ Graph is valid"]
  else
    (s!"✘ Graph has violations: {r.edges.length} edge, {r.cardinalities.length} cardinality, " ++
      s!"{r.unknownClasses.length} unknown class violation(s)") ::
      r.messages.map fun line => "  " ++ line

namespace Session

def check (s : Session) (files : Files) (bounds : Bool) : Except Stop Outcome := do
  let c ← s.compiled files
  let lines := c.grammar.summary ++ if bounds then c.grammar.boundLines else []
  return ⟨joinLines lines, warningLines c.warnings, none⟩

def render (s : Session) (files : Files) : Except Stop Outcome := do
  let rules ← s.rules files
  return ⟨Rule.renderAll rules, [], none⟩

def validate (s : Session) (files : Files) (path : String) (allowViolations : Bool) :
    Except Stop Outcome := do
  let c ← s.compiled files
  let warnings := warningLines c.warnings
  let graph ← (readGraph files path).mapError (.after warnings)
  let report := c.grammar.validate graph
  return {
    output := report.toJson.pretty ++ "\n"
    notes := warnings ++ report.summary
    error := if report.isValid || allowViolations then none else some (.violations report.count) }

def run (s : Session) (files : Files) : Outcome :=
  let outcome := match s.command with
    | .check bounds => s.check files bounds
    | .render => s.render files
    | .validate path allowViolations => s.validate files path allowViolations
    | .version => .ok ⟨"deprules v0.1.0\n", [], none⟩
  match outcome with
  | .ok outcome => outcome
  | .error stop => stop.outcome

/-- The files that a session may read. -/
def paths (s : Session) : List String :=
  let graph := match s.command with
    | .validate path _ => some path
    | _ => none
  s.grammar.toList ++ s.classes.toList ++ graph.toList

end Session

/-- What the words of a command line and the variables ask for. -/
inductive Request where
  | misused
  | refused (error : CommandError)
  | session (s : Session)
  deriving DecidableEq, Repr

/-- The file of variables counts first; settings at fault are reported before a misuse. -/
def Request.of (variableFile : FileState) (env : Environment) (words : List String) : Request :=
  let env := match variableFile.contents? with
    | none => env
    | some contents => EnvironmentFile.load contents env
  match Settings.ofEnvironment Settings.variableStart env with
  | .error e => .refused (.settings e)
  | .ok settings =>
    match Arguments.parse? env words with
    | none => .misused
    | some arguments => .session (.ofSettings settings arguments)

/-- No outcome is a misuse of the command line. -/
def Request.run? (files : Files) : Request → Option Outcome
  | misused => none
  | refused e => some (Stop.of e).outcome
  | session s => some (s.run files)

end AttachmentGrammar
