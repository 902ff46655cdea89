import AttachmentGrammar.Environment
import AttachmentGrammar.Text.Cut
/-!
The command line. Options for all commands may stand before or after the command, each at most once
in either place, and the later place wins. A variable stands in for an option at a place that does
not give it.
-/
namespace AttachmentGrammar

inductive Command where
  | check (bounds : Bool)
  | render
  | validate (graph : String) (allowViolations : Bool)
  | version
  deriving DecidableEq, Repr

/-- Options that every command takes. -/
structure Options where
  grammar : Option String
  classes : Option String
  logLevel : Option String
  strict : Bool
  deriving DecidableEq, Repr

structure Arguments where
  options : Options
  command : Command
  deriving DecidableEq, Repr

/-- What the words of one place give: the options, the switches of the command and the values. -/
structure Words where
  options : Options
  switches : List String
  values : List String
  deriving DecidableEq, Repr

namespace Options

def empty : Options := ⟨none, none, none, false⟩

/-- Sets an option that takes a value; paths are not empty, and no option is given twice. -/
def set? (o : Options) (name value : String) : Option Options :=
  if name = "--grammar" then
    if o.grammar.isNone ∧ value ≠ "" then some { o with grammar := some value } else none
  else if name = "--classes" then
    if o.classes.isNone ∧ value ≠ "" then some { o with classes := some value } else none
  else if name = "--log-level" then
    if o.logLevel.isNone then some { o with logLevel := some value } else none
  else none

def takesValue (name : String) : Bool := ["--grammar", "--classes", "--log-level"].contains name

/-- Where both places give an option, the inner one counts. -/
def within (outer inner : Options) : Options where
  grammar := inner.grammar.or outer.grammar
  classes := inner.classes.or outer.classes
  logLevel := inner.logLevel.or outer.logLevel
  strict := inner.strict || outer.strict

/-- A variable that has to stand in for a path is not empty. -/
def acceptsVariables (env : Environment) (o : Options) : Bool :=
  (o.grammar.isSome || env.text? "DEPRULES_GRAMMAR" ≠ some "") &&
    (o.classes.isSome || env.text? "DEPRULES_CLASSES" ≠ some "")

def ofVariables (env : Environment) : Options where
  grammar := env.text? "DEPRULES_GRAMMAR"
  classes := env.text? "DEPRULES_CLASSES"
  logLevel := env.text? "DEPRULES_LOG"
  strict := false

end Options

namespace Words

def empty : Words := ⟨.empty, [], []⟩

def isOption (word : String) : Bool := word.startsWith "-" && word ≠ "-"

/-- A switch is given once and without a value. -/
def addSwitch? (known : List String) (w : Words) (name : String) : Option Words :=
  if name = "--strict" then
    if w.options.strict then none else some { w with options := { w.options with strict := true } }
  else if known.contains name ∧ name ∉ w.switches then
    some { w with switches := w.switches ++ [name] }
  else none

def setOption? (w : Words) (name value : String) : Option Words :=
  (w.options.set? name value).map fun options => { w with options := options }

def splitAssignment? (word : String) : Option (String × String) :=
  (Text.cut '=' word.toList).map fun (name, value) => (String.ofList name, String.ofList value)

/-- Reads words until one is a command. After two dashes every word is a value. -/
def read? (known : List String) (isCommand : String → Bool) :
    List String → Words → Option (Words × List String)
  | [], w => some (w, [])
  | word :: rest, w =>
    if isCommand word then some (w, word :: rest)
    else if word = "--" then some ({ w with values := w.values ++ rest }, [])
    else if isOption word then
      match splitAssignment? word with
      | some (name, value) => (w.setOption? name value).bind (read? known isCommand rest)
      | none =>
        if Options.takesValue word then
          match rest with
          | [] => none
          | value :: rest =>
            if isOption value then none
            else (w.setOption? word value).bind (read? known isCommand rest)
        else (w.addSwitch? known word).bind (read? known isCommand rest)
    else read? known isCommand rest { w with values := w.values ++ [word] }

end Words

namespace Arguments

def commandNames : List String := ["check", "render", "validate", "version"]

def switchesOf (command : String) : List String :=
  if command = "check" then ["--bounds"]
  else if command = "validate" then ["--allow-violations"]
  else []

def command? (name : String) (w : Words) : Option Command :=
  match name, w.values with
  | "check", [] => some (.check (w.switches.contains "--bounds"))
  | "render", [] => some .render
  | "version", [] => some .version
  | "validate", [graph] =>
    if graph = "" then none
    else some (.validate graph (w.switches.contains "--allow-violations"))
  | _, _ => none

def parse? (env : Environment) (words : List String) : Option Arguments := do
  let (outer, rest) ← Words.empty.read? [] commandNames.contains words
  match rest, outer.values with
  | name :: rest, [] => do
    let (inner, _) ← Words.empty.read? (switchesOf name) (fun _ => false) rest
    let command ← command? name inner
    if outer.options.acceptsVariables env ∧ inner.options.acceptsVariables env then
      return ⟨(Options.ofVariables env).within (outer.options.within inner.options), command⟩
    else none
  | _, _ => none

end Arguments

end AttachmentGrammar
