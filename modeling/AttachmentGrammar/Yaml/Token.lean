import AttachmentGrammar.Yaml.Scalar
/-!
The tokens of a YAML text. Block collections have no brackets: they open at a deeper column and end
in front of a shallower one. A key needs no mark of its own, so that its token is put in front of
it once the colon is found. Directives, anchors, tags and block scalars are refused.
-/
namespace AttachmentGrammar.Yaml

inductive Token where
  | documentStart
  | documentEnd
  | blockSequence
  | blockMapping
  | blockEnd
  | item
  | key
  | value
  | openSequence
  | closeSequence
  | openMapping
  | closeMapping
  | comma
  | scalar (isQuoted : Bool) (text : List Char)
  deriving DecidableEq

/-- A place where a key without a mark may start. -/
structure KeyStart where
  place : Place
  /-- How many tokens stand in front. -/
  index : Nat
  /-- Whether nothing but a key can stand there. -/
  isRequired : Bool

/-- The colon after a key stands on the line of the key, at most 1024 bytes from its start. -/
def KeyStart.isOutOfReach (start : KeyStart) (place : Place) : Bool :=
  start.place.line < place.line || start.place.offset + 1024 < place.offset

structure TokenReader where
  cursor : Cursor
  tokens : Array Token
  /-- The columns of the open block collections, the innermost first. -/
  indents : List Nat
  keyStart : Option KeyStart
  /-- The starts of keys around each open bracket, the innermost first. -/
  outerKeyStarts : List (Option KeyStart)
  mayStartKey : Bool

namespace TokenReader

def ofText (text : List Char) : TokenReader := ⟨⟨.first, text⟩, #[], [], none, [], true⟩

def inBrackets (r : TokenReader) : Bool := !r.outerKeyStarts.isEmpty

def column (r : TokenReader) : Nat := r.cursor.place.column

/-- Adds a token of the given length. -/
def push (token : Token) (length : Nat) (r : TokenReader) : TokenReader :=
  { r with tokens := r.tokens.push token, cursor := r.cursor.drop length }

/-! ## Block collections -/

/-- Opens a block collection in front of a token, unless one of that column is open. -/
def openBlock (token : Token) (column index : Nat) (r : TokenReader) : TokenReader :=
  if !r.inBrackets && r.indents.head?.all (· < column) then
    { r with
      indents := column :: r.indents
      tokens := r.tokens.insertIdxIfInBounds index token }
  else r

/-- Ends the block collections that are indented at least as given. -/
def closeBlocks (floor : Nat) (r : TokenReader) : TokenReader :=
  if r.inBrackets then r
  else
    let closed := r.indents.takeWhile (floor ≤ ·)
    { r with
      indents := r.indents.drop closed.length
      tokens := r.tokens ++ closed.map fun _ => Token.blockEnd }

/-! ## Keys -/

def dropKeyStart? (r : TokenReader) : Option TokenReader :=
  if r.keyStart.any (·.isRequired) then none else some { r with keyStart := none }

def dropKeyOutOfReach? (r : TokenReader) : Option TokenReader :=
  if r.keyStart.any (·.isOutOfReach r.cursor.place) then r.dropKeyStart? else some r

def holdKeyStart? (r : TokenReader) : Option TokenReader :=
  if r.mayStartKey then
    r.dropKeyStart?.map fun r =>
      { r with keyStart := some {
          place := r.cursor.place
          index := r.tokens.size
          isRequired := !r.inBrackets && r.indents.head? = some r.column } }
  else some r

/-! ## Single tokens -/

def readMarker? (token : Token) (r : TokenReader) : Option TokenReader :=
  (r.closeBlocks 0).dropKeyStart?.map fun r => { r with mayStartKey := false }.push token 3

def readOpen? (token : Token) (r : TokenReader) : Option TokenReader :=
  r.holdKeyStart?.map fun r =>
    { r with
      keyStart := none
      outerKeyStarts := r.keyStart :: r.outerKeyStarts
      mayStartKey := true }.push token 1

def readClose? (token : Token) (r : TokenReader) : Option TokenReader :=
  r.dropKeyStart?.map fun r =>
    { r with
      keyStart := r.outerKeyStarts.head?.join
      outerKeyStarts := r.outerKeyStarts.drop 1
      mayStartKey := false }.push token 1

def readComma? (r : TokenReader) : Option TokenReader :=
  r.dropKeyStart?.map fun r => { r with mayStartKey := true }.push .comma 1

def readItem? (r : TokenReader) : Option TokenReader :=
  if r.inBrackets || !r.mayStartKey then none
  else (r.openBlock .blockSequence r.column r.tokens.size).dropKeyStart?.map (push .item 1)

def readKeyMark? (r : TokenReader) : Option TokenReader :=
  if !r.inBrackets && !r.mayStartKey then none
  else
    (r.openBlock .blockMapping r.column r.tokens.size).dropKeyStart?.map fun r =>
      { r with mayStartKey := !r.inBrackets }.push .key 1

def readValueMark? (r : TokenReader) : Option TokenReader :=
  match r.keyStart with
  | some start =>
    let r := { r with
      tokens := r.tokens.insertIdxIfInBounds start.index .key
      keyStart := none
      mayStartKey := false }
    some ((r.openBlock .blockMapping start.place.column start.index).push .value 1)
  | none =>
    if !r.inBrackets && !r.mayStartKey then none
    else
      let r := r.openBlock .blockMapping r.column r.tokens.size
      some ({ r with mayStartKey := !r.inBrackets }.push .value 1)

def readQuoted? (quote : Quote) (r : TokenReader) : Option TokenReader := do
  let r ← r.holdKeyStart?
  let (text, cursor) ← readQuoted quote (r.cursor.rest.length + 1) (r.cursor.drop 1)
  return { r with tokens := r.tokens.push (.scalar true text), cursor, mayStartKey := false }

/-- After a scalar that ends in front of a new line a key may start. -/
def readPlain? (r : TokenReader) : Option TokenReader := do
  let r ← r.holdKeyStart?
  let floor := (r.indents.head?.map (· + 1)).getD 0
  let scalar ← readPlain r.inBrackets floor [] r.cursor.place r.cursor.rest
  return { r with
    tokens := r.tokens.push (.scalar false scalar.text)
    cursor := scalar.finish
    mayStartKey := scalar.endsLine }

/-- Characters that start neither a plain scalar nor anything else that is read. -/
def refusedStarts : List Char := ['#', '&', '*', '!', '|', '>', '%', '@', '\x60']

def readToken? (r : TokenReader) : Option TokenReader :=
  if r.cursor.isAtMarker '-' then r.readMarker? .documentStart
  else if r.cursor.isAtMarker '.' then r.readMarker? .documentEnd
  else
    match r.cursor.rest with
    | [] => none
    | c :: rest =>
      let isAlone := rest.head?.all isGap
      match c with
      | '[' => r.readOpen? .openSequence
      | ']' => r.readClose? .closeSequence
      | '{' => r.readOpen? .openMapping
      | '}' => r.readClose? .closeMapping
      | ',' => r.readComma?
      | '\'' => r.readQuoted? .single
      | '"' => r.readQuoted? .double
      | '-' => if isAlone then r.readItem? else r.readPlain?
      | '?' => if r.inBrackets || isAlone then r.readKeyMark? else r.readPlain?
      | ':' => if r.inBrackets || isAlone then r.readValueMark? else r.readPlain?
      | c => if isGap c || refusedStarts.contains c then none else r.readPlain?

/-! ## All tokens -/

/-- Skips blanks, comments and line breaks, and a byte order mark in front of a line, which takes a
column. Outside brackets, a tab stands neither in front of a line nor where else a key may start. -/
def skip (inBrackets : Bool) : Bool → Bool → Place → List Char → Bool × Cursor
  | _, mayStartKey, place, [] => (mayStartKey, ⟨place, []⟩)
  | inComment, mayStartKey, place, c :: rest =>
    if isBreak c then skip inBrackets false (mayStartKey || !inBrackets) (place.after c) rest
    else if inComment || c = ' ' || (c = '\t' && (inBrackets || !mayStartKey)) ||
        (c = '\ufeff' && place.column = 0) then
      skip inBrackets inComment mayStartKey (place.after c) rest
    else if c = '#' then skip inBrackets true mayStartKey (place.after c) rest
    else (mayStartKey, ⟨place, c :: rest⟩)

def skipGap (r : TokenReader) : TokenReader :=
  let (mayStartKey, cursor) :=
    skip r.inBrackets false r.mayStartKey r.cursor.place r.cursor.rest
  { r with mayStartKey, cursor }

/-- Each round takes at least a character. -/
def readTokens? : Nat → TokenReader → Option (List Token)
  | 0, _ => none
  | fuel + 1, r => do
    let r ← r.skipGap.dropKeyOutOfReach?
    let r := r.closeBlocks (r.column + 1)
    if r.cursor.rest = [] then return (← (r.closeBlocks 0).dropKeyStart?).tokens.toList
    else readTokens? fuel (← r.readToken?)

end TokenReader

def tokens? (text : String) : Option (List Token) :=
  let s := text.toList
  if s.all isAllowed then TokenReader.readTokens? (s.length + 1) (.ofText (unifyBreaks s))
  else none

end AttachmentGrammar.Yaml
