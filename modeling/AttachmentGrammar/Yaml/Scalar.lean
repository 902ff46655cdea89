import AttachmentGrammar.Json.Escape
import AttachmentGrammar.Yaml.Cursor
/-!
Reading YAML scalars, which may go over several lines. Each reader returns the text and the cursor
behind it.
-/
namespace AttachmentGrammar.Yaml

/-- A single line break stands for a blank; of several in a row the first is left out. -/
def foldBreaks : List Char → List Char
  | ['\n'] => [' ']
  | '\n' :: more => more
  | breaks => breaks

/-- What blanks and line breaks between two words of a scalar stand for. -/
def gapText (gap : List Char) : List Char :=
  if gap.any isBreak then foldBreaks (gap.filter isBreak) else gap

/-! ## Scalars in quotes -/

inductive Quote where
  | single
  | double
  deriving DecidableEq

def Quote.char : Quote → Char
  | single => '\''
  | double => '"'

def namedEscape? : Char → Option Char
  | '0' => some '\x00'
  | 'a' => some '\x07'
  | 'b' => some '\x08'
  | 't' | '\t' => some '\t'
  | 'n' => some '\n'
  | 'v' => some '\x0b'
  | 'f' => some '\x0c'
  | 'r' => some '\r'
  | 'e' => some '\x1b'
  | ' ' => some ' '
  | '"' => some '"'
  | '/' => some '/'
  | '\\' => some '\\'
  | 'N' => some '\u0085'
  | '_' => some '\u00a0'
  | 'L' => some '\u2028'
  | 'P' => some '\u2029'
  | _ => none

def escapeLength? : Char → Option Nat
  | 'x' => some 2
  | 'u' => some 4
  | 'U' => some 8
  | _ => none

def charOf? (code : Nat) : Option Char :=
  if code.isValidChar then some (Char.ofNat code) else none

def readHex? (digits : List Char) : Option Nat :=
  digits.foldlM (fun n c => (Json.hexDigit? c).map (n * 16 + ·)) 0

/-- The character of an escape and how much of the text after the backslash it takes. -/
def readEscape? : List Char → Option (Char × Nat)
  | [] => none
  | letter :: rest =>
    match escapeLength? letter with
    | none => (namedEscape? letter).map (·, 1)
    | some n =>
      if (rest.take n).length = n then
        ((readHex? (rest.take n)).bind charOf?).map (·, n + 1)
      else none

/-- A backslash in front of a line break takes the break away. -/
def readQuoted (quote : Quote) : Nat → Cursor → Option (List Char × Cursor)
  | 0, _ => none
  | fuel + 1, cursor =>
    let continueWith (text : List Char) (n : Nat) : Option (List Char × Cursor) :=
      (readQuoted quote fuel (cursor.drop n)).map fun (more, cursor) => (text ++ more, cursor)
    match cursor.rest with
    | [] => none
    | c :: rest =>
      if cursor.isAtAnyMarker then none
      else if isGap c then
        let gap := cursor.rest.takeWhile isGap
        continueWith (gapText gap) gap.length
      else if c = '\'' ∧ quote = .single ∧ rest.head? = some '\'' then continueWith ['\''] 2
      else if c = quote.char then some ([], cursor.drop 1)
      else if c = '\\' ∧ quote = .double then
        if rest.head?.any isBreak then
          let gap := (rest.drop 1).takeWhile isGap
          continueWith (gap.filter isBreak) (gap.length + 2)
        else (readEscape? rest).bind fun (decoded, n) => continueWith [decoded] (n + 1)
      else continueWith [c] 1

/-! ## Scalars without quotes -/

def isBracket (c : Char) : Bool := c = '[' || c = ']' || c = '{' || c = '}'

/-- Whether a word of a plain scalar ends in front of a character with the given text after. -/
def endsWord (inBrackets : Bool) (c : Char) (rest : List Char) : Bool :=
  (c = ':' && rest.head?.all isGap) || (inBrackets && (c = ',' || isBracket c))

/-- A colon inside brackets right before one, a comma or a question mark. -/
def isStrayColon (inBrackets : Bool) (c : Char) (rest : List Char) : Bool :=
  inBrackets && c = ':' && rest.head?.any fun d => d = ',' || d = '?' || isBracket d

structure PlainScalar where
  text : List Char
  finish : Cursor
  /-- Whether a line break was read behind the last word. -/
  endsLine : Bool

/-- The first list is the gap since the last word, backwards. Outside brackets the scalar ends at a
line that is not indented at least as given; a tab may nowhere stand for such an indent. -/
def readPlain (inBrackets : Bool) (floor : Nat) :
    List Char → Place → List Char → Option PlainScalar
  | gap, place, [] => some ⟨[], ⟨place, []⟩, gap.any isBreak⟩
  | gap, place, c :: rest =>
    let cursor : Cursor := ⟨place, c :: rest⟩
    if isGap c then
      if c = '\t' ∧ gap.any isBreak ∧ place.column < floor then none
      else readPlain inBrackets floor (c :: gap) (place.after c) rest
    else if cursor.isAtAnyMarker ∨ gap ≠ [] ∧ c = '#' ∨
        gap ≠ [] ∧ inBrackets = false ∧ place.column < floor ∨ endsWord inBrackets c rest then
      some ⟨[], cursor, gap.any isBreak⟩
    else if isStrayColon inBrackets c rest then none
    else
      (readPlain inBrackets floor [] (place.after c) rest).map fun scalar =>
        { scalar with text := gapText gap.reverse ++ c :: scalar.text }

end AttachmentGrammar.Yaml
