import AttachmentGrammar.Environment
import AttachmentGrammar.Text.Alphanumeric
import AttachmentGrammar.Text.Blank
import AttachmentGrammar.Text.Cut
/-!
Files of environment variables: one assignment a line, with quotes, escapes, comments and references
to other variables. The assignments count up to the first line at fault, and a variable that is set
already keeps its value.
-/
namespace AttachmentGrammar.EnvironmentFile

/-! ## Lines: a quote or an escape at the end of one goes on in the next -/

inductive Scan where
  | complete
  | blank
  | escape
  | single
  | singleEscape
  | double
  | doubleEscape
  deriving DecidableEq, Repr

def Scan.start : Char → Scan
  | '\\' => escape
  | '"' => double
  | '\'' => single
  | _ => complete

def Scan.next : Scan → Char → Scan
  | complete, c =>
    if Text.isBlank c ∧ c ≠ '\n' ∧ c ≠ '\r' then blank else start c
  | blank, c => start c
  | escape, _ => complete
  | double, c => if c = '\\' then doubleEscape else if c = '"' then complete else double
  | doubleEscape, _ => double
  | single, c => if c = '\\' then singleEscape else if c = '\'' then complete else single
  | singleEscape, _ => single

/-- Reads a line up to a comment, which a blank and a number sign start; no state is left then. -/
def scan : Scan → List Char → List Char × Option Scan
  | state, [] => ([], some state)
  | state, c :: rest =>
    if state = .blank ∧ c = '#' then ([], none)
    else
      let (kept, last) := scan (state.next c) rest
      (c :: kept, last)

def dropBreak (line : List Char) : List Char :=
  if line.getLast? = some '\n' then
    let line := line.dropLast
    if line.getLast? = some '\r' then line.dropLast else line
  else line

/-- Joins the lines that belong together; a line that is no text, and one that is still open at the
end of the file, is at fault. -/
def gather : Scan → List Char → List (Option (List Char)) → List (Option (List Char))
  | state, _, [] => if state = .complete then [] else [none]
  | _, _, none :: _ => [none]
  | state, before, some line :: rest =>
    let whole := before ++ line
    if (Text.trimStart whole).head? = some '#' then some [] :: gather .complete [] rest
    else match scan state line with
      | (kept, none) => some (before ++ kept) :: gather .complete [] rest
      | (_, some .complete) => some (dropBreak whole) :: gather .complete [] rest
      | (_, some state) => gather state whole rest

/-- The lines with their breaks; a line with bytes that are no text is none. -/
def physicalLines : List Text.Glyph → List (List Text.Glyph)
  | [] => []
  | g :: rest =>
    if g = .char '\n' then [g] :: physicalLines rest
    else match physicalLines rest with
      | [] => [[g]]
      | line :: lines => (g :: line) :: lines

def dropMark : Text.Bytes → Text.Bytes
  | 0xEF :: 0xBB :: 0xBF :: rest => rest
  | bytes => bytes

def logicalLines (bytes : Text.Bytes) : List (Option (List Char)) :=
  gather .complete [] ((physicalLines (Text.glyphs (dropMark bytes))).map Text.charsOf?)

/-! ## Values -/

inductive Mode where
  | plain
  | escape
  | single
  | reference (name : List Char)
  | bracedReference (name : List Char)
  | ended
  | comment
  deriving DecidableEq, Repr

structure ValueState where
  mode : Mode
  inDouble : Bool
  output : List Char
  deriving DecidableEq, Repr

def escaped? : Char → Option Char
  | '\\' => some '\\'
  | '\'' => some '\''
  | '"' => some '"'
  | '$' => some '$'
  | ' ' => some ' '
  | 'n' => some '\n'
  | _ => none

namespace ValueState

def put (s : ValueState) (c : Char) : ValueState :=
  { s with mode := .plain, output := s.output ++ [c] }

def refer (lookup : String → String) (name : List Char) (s : ValueState) : ValueState :=
  { s with mode := .plain, output := s.output ++ (lookup (String.ofList name)).toList }

/-- Where a reference has just ended, only a dollar sign means something again. -/
def afterReference (s : ValueState) (c : Char) : ValueState :=
  if c = '$' then { s with mode := .reference [] } else s.put c

def stepPlain (s : ValueState) (c : Char) : ValueState :=
  if c = '$' then { s with mode := .reference [] }
  else if c = '\\' then { s with mode := .escape }
  else if s.inDouble then
    if c = '"' then { s with inDouble := false } else s.put c
  else if c = '\'' then { s with mode := .single }
  else if c = '"' then { s with inDouble := true }
  else if c = ' ' ∨ c = '\t' then { s with mode := .ended }
  else s.put c

def step? (lookup : String → String) (s : ValueState) (c : Char) : Option ValueState :=
  match s.mode with
  | .comment => some s
  | .ended =>
    if c = ' ' ∨ c = '\t' then some s
    else if c = '#' then some { s with mode := .comment }
    else none
  | .escape => (escaped? c).map s.put
  | .single =>
    some (if c = '\'' then { s with mode := .plain }
      else { s with output := s.output ++ [c] })
  | .reference name =>
    some (if Text.isAlphanumeric c then { s with mode := .reference (name ++ [c]) }
      else if c = '{' ∧ name = [] then { s with mode := .bracedReference [] }
      else (s.refer lookup name).afterReference c)
  | .bracedReference name =>
    some (if c = '}' then s.refer lookup name
      else { s with mode := .bracedReference (name ++ [c]) })
  | .plain => some (s.stepPlain c)

def finish? (lookup : String → String) (s : ValueState) : Option (List Char) :=
  if s.inDouble then none
  else match s.mode with
    | .single | .bracedReference _ => none
    | .reference name => some (s.refer lookup name).output
    | _ => some s.output

end ValueState

def readValue? (lookup : String → String) (s : List Char) : Option String := do
  let last ← s.foldlM (ValueState.step? lookup) ⟨.plain, false, []⟩
  let value ← last.finish? lookup
  return String.ofList value

/-! ## Assignments -/

def isNameStart (c : Char) : Bool := c.isAlpha || c = '_'

def isNameChar (c : Char) : Bool := c.isAlphanum || c = '_' || c = '.'

def readName? (s : List Char) : Option (List Char × List Char) :=
  if s.head?.any isNameStart then some (s.takeWhile isNameChar, s.dropWhile isNameChar) else none

def readEquals? : List Char → Option (List Char)
  | '=' :: rest => some rest
  | _ => none

/-- The name and what stands for its value; the word export may stand in front of the name. -/
def readAssignment? (s : List Char) : Option (List Char × List Char) := do
  let (name, rest) ← readName? s
  let rest := Text.trimStart rest
  match readEquals? rest with
  | some value => return (name, Text.trimStart value)
  | none =>
    if name = ['e', 'x', 'p', 'o', 'r', 't'] then
      let (name, rest) ← readName? rest
      let value ← readEquals? (Text.trimStart rest)
      return (name, Text.trimStart value)
    else none

/-- What a reference gives. -/
def lookup (env : Environment) (name : String) : String := (env.text? name).getD ""

inductive Line where
  | nothing
  | assignment (name value : String)
  | fault
  deriving DecidableEq, Repr

def readLine (env : Environment) (line : List Char) : Line :=
  let s := Text.trim line
  if s = [] ∨ s.head? = some '#' then .nothing
  else match readAssignment? s with
    | none => .fault
    | some (name, value) =>
      if value = [] ∨ value.head? = some '#' then .assignment (String.ofList name) ""
      else match readValue? (lookup env) value with
        | none => .fault
        | some value => .assignment (String.ofList name) value

def setUnlessSet (env : Environment) (name value : String) : Environment :=
  if (env.text? name).isSome then env else env.insert name (Text.encode value)

/-- Each line is read with the variables that the lines before it have set. -/
def loadLines : List (Option (List Char)) → Environment → Environment
  | [], env => env
  | none :: _, env => env
  | some line :: rest, env =>
    match readLine env line with
    | .nothing => loadLines rest env
    | .fault => env
    | .assignment name value => loadLines rest (setUnlessSet env name value)

def load (bytes : Text.Bytes) (env : Environment) : Environment :=
  loadLines (logicalLines bytes) env

end AttachmentGrammar.EnvironmentFile
