import AttachmentGrammar.Json.Fault
import AttachmentGrammar.SortedMap
import AttachmentGrammar.Text.Blank
import AttachmentGrammar.Text.Cut
import AttachmentGrammar.Text.Quoted
/-!
Environment variables and the settings read from them. Values are bytes; a value that is blank
counts as not set, and one that is no text is an error where it is needed.
-/
namespace AttachmentGrammar

abbrev Environment := SortedMap String Text.Bytes

namespace Environment

def assignment? (written : Text.Bytes) : Option (String × Text.Bytes) := do
  let (name, value) ← Text.cut 0x3D written
  let name ← Text.decode? name
  return (name, value)

/-- Reads assignments that a zero byte ends; the first of a name counts. -/
def ofAssignments (written : Text.Bytes) : Environment :=
  .ofList ((written.splitOn 0).filterMap assignment?).reverse

/-- What follows a name and an equals sign in the written assignments: a name that has such a sign
itself reaches into the value. -/
def written? (env : Environment) (name : String) : Option Text.Bytes :=
  match Text.cut '=' name.toList with
  | none => env.get? name
  | some (name, start) =>
    (env.get? (String.ofList name)).bind fun value =>
      List.isPrefixOf? (Text.encode (String.ofList start) ++ [0x3D]) value

/-- A value that is no text does not count. -/
def text? (env : Environment) (name : String) : Option String :=
  (env.written? name).bind Text.decode?

end Environment

inductive SettingsError where
  | notBoolean (name value : String)
  | notText (name : String) (value : Text.Bytes)
  deriving DecidableEq, Repr

namespace SettingsError

def message : SettingsError → String
  | notBoolean name value =>
    let value := String.ofList (Text.quoted value.toList)
    s!"invalid value for environment variable {name}: {value} (expected a boolean)"
  | notText name _ => s!"environment variable {name} is not valid unicode"

def cause? : SettingsError → Option String
  | notBoolean _ _ => none
  | notText _ value =>
    some ("environment variable was not valid unicode: " ++
      String.ofList (Text.quotedBytes value))

end SettingsError

structure Settings where
  strictPatterns : Bool
  logLevel : String
  grammarPath : Option String
  classesPath : Option String
  deriving DecidableEq, Repr

namespace Settings

def standard : Settings := ⟨false, "info", none, none⟩

def variableStart : String := "DEPRULES_"

def readText (env : Environment) (name : String) : Except SettingsError (Option String) :=
  match env.get? name with
  | none => .ok none
  | some value =>
    match Text.decode? value with
    | none => .error (.notText name value)
    | some text => .ok (if Text.trim text.toList = [] then none else some text)

def boolean? (text : String) : Option Bool :=
  let word := String.ofList ((Text.trim text.toList).map Char.toLower)
  if word ∈ ["1", "true", "yes", "on"] then some true
  else if word ∈ ["0", "false", "no", "off"] then some false
  else none

def readBoolean (env : Environment) (name : String) : Except SettingsError (Option Bool) := do
  match ← readText env name with
  | none => return none
  | some text =>
    match boolean? text with
    | some value => return some value
    | none => .error (.notBoolean name text)

/-- Reads the variables whose names start with `start`, the switch first, then the log level. -/
def ofEnvironment (start : String) (env : Environment) : Except SettingsError Settings := do
  let strictPatterns ← readBoolean env (start ++ "STRICT_PATTERNS")
  let logLevel ← readText env (start ++ "LOG")
  let grammarPath ← readText env (start ++ "GRAMMAR")
  let classesPath ← readText env (start ++ "CLASSES")
  return {
    strictPatterns := strictPatterns.getD standard.strictPatterns
    logLevel := logLevel.getD standard.logLevel
    grammarPath := grammarPath
    classesPath := classesPath }

end Settings

/-- A failure as programs built on the library report it. -/
inductive Failure where
  | io (text : String)
  | serialization (text : String)
  | deserialization (text : String)
  | configuration (text : String)
  | general (text : String)
  deriving DecidableEq, Repr

namespace Failure

def message : Failure → String
  | io text => s!"I/O error: {text}"
  | serialization text => s!"serialization error: {text}"
  | deserialization text => s!"deserialization error: {text}"
  | configuration text => s!"configuration error: {text}"
  | general text => text

def ofJsonFault (fault : Json.Fault) : Failure := deserialization fault.message

def ofSettingsError (e : SettingsError) : Failure := configuration e.message

end Failure

def loadSettings (env : Environment) : Except Failure Settings :=
  (Settings.ofEnvironment Settings.variableStart env).mapError Failure.ofSettingsError

end AttachmentGrammar
