import AttachmentGrammar.Rule.Basic
import AttachmentGrammar.Text.Blank
import AttachmentGrammar.Text.Lines
/-!
Reading rules. A token is a pattern, perhaps with a range in braces after it; a line is two sides
with a bar between them; a text is read line by line, and every line at fault is reported.
-/
namespace AttachmentGrammar

inductive TokenError where
  | unmatchedBrace
  | trailingText
  | emptyPattern
  | invalidBound (value : String)
  | malformedCardinality
  | emptyRange (low high : UInt32)
  deriving DecidableEq, Repr

inductive LineError where
  | missingSeparator
  | extraSeparator
  | emptyRule
  | token (text : String) (cause : TokenError)
  deriving DecidableEq, Repr

structure ParseError where
  line : Nat
  text : String
  cause : LineError
  deriving DecidableEq, Repr

def TokenError.message (token : String) : TokenError → String
  | unmatchedBrace => s!"unmatched brace in token `{token}`"
  | trailingText => s!"unexpected text after cardinality in token `{token}`"
  | emptyPattern => s!"cardinality without a class pattern in token `{token}`"
  | invalidBound value => s!"invalid bound `{value}` in token `{token}`"
  | malformedCardinality => s!"malformed cardinality in token `{token}`"
  | emptyRange low high =>
    s!"empty cardinality range \x7b{low},{high}\x7d in token `{token}`"

def LineError.message : LineError → String
  | missingSeparator => "missing `|` separator"
  | extraSeparator => "more than one `|` separator"
  | emptyRule => "rule has no patterns on either side"
  | token text cause => cause.message text

def ParseError.message (e : ParseError) : String :=
  s!"line {e.line}: {e.cause.message} in `{e.text}`"

def readBound (value : List Char) : Except TokenError UInt32 :=
  match Text.readWord value with
  | some n => .ok n
  | none => .error (.invalidBound (String.ofList value))

/-- A bound left out on either side of the comma leaves that side open. -/
def readBounds (range : List Char) : Except TokenError (UInt32 × Option UInt32) :=
  match range.splitOn ',' with
  | [exact] => do
    let n ← readBound exact
    return (n, some n)
  | [low, high] => do
    let low ← if low = [] then pure 0 else readBound low
    let high ← if high = [] then pure none else some <$> readBound high
    return (low, high)
  | _ => .error .malformedCardinality

def Cardinality.parse (range : List Char) : Except TokenError Cardinality := do
  let (low, high) ← readBounds range
  match Cardinality.ofBounds? low high with
  | some c => return c
  | none => .error (.emptyRange low (high.getD low))

def Token.parse (s : List Char) : Except TokenError Token :=
  match Text.cut '{' s with
  | none => if '}' ∈ s then .error .unmatchedBrace else .ok ⟨⟨String.ofList s⟩, none⟩
  | some (pattern, rest) =>
    match Text.cut '}' rest with
    | none => .error .unmatchedBrace
    | some (range, trailing) =>
      if pattern = [] then .error .emptyPattern
      else if '}' ∈ pattern ∨ '{' ∈ range then .error .unmatchedBrace
      else if trailing ≠ [] then .error .trailingText
      else do
        let c ← Cardinality.parse range
        return ⟨⟨String.ofList pattern⟩, some c⟩

def parseTokens : List (List Char) → Except LineError (List Token)
  | [] => .ok []
  | word :: words =>
    match Token.parse word with
    | .error cause => .error (.token (String.ofList word) cause)
    | .ok token => (parseTokens words).map (token :: ·)

def Statement.ofSides : List Token → List Token → Except LineError Statement
  | [], [] => .error .emptyRule
  | sources, [] => .ok (.sourceAggregate sources)
  | [], targets => .ok (.targetAggregate targets)
  | sources, targets => .ok (.attachment sources targets)

/-- Gives no statement for a blank line and for one that starts with a number sign. -/
def Statement.parse (line : List Char) : Except LineError (Option Statement) :=
  let s := Text.trim line
  if s = [] ∨ s.head? = some '#' then .ok none
  else match Text.cut '|' s with
    | none => .error .missingSeparator
    | some (left, right) =>
      if '|' ∈ right then .error .extraSeparator
      else do
        let sources ← parseTokens (Text.words left)
        let targets ← parseTokens (Text.words right)
        let statement ← Statement.ofSides sources targets
        return some statement

def LineError.locate (line : Nat) (text : List Char) (cause : LineError) : ParseError :=
  ⟨line, String.ofList (Text.trim text), cause⟩

/-- The errors and the rules of the lines, the first of which has the given number. -/
def parseLines : Nat → List (List Char) → List ParseError × List Rule
  | _, [] => ([], [])
  | n, line :: rest =>
    let (errors, rules) := parseLines (n + 1) rest
    match Statement.parse line with
    | .error cause => (cause.locate n line :: errors, rules)
    | .ok none => (errors, rules)
    | .ok (some statement) => (errors, ⟨n, statement⟩ :: rules)

def parseRules (text : String) : Except (List ParseError) (List Rule) :=
  match parseLines 1 (Text.lines text.toList) with
  | ([], rules) => .ok rules
  | (errors, _) => .error errors

end AttachmentGrammar
