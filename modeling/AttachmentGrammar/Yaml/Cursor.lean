/-!
Where the reading of a YAML text stands. Besides the line feed, the separators of lines and of
paragraphs break a line.
-/
namespace AttachmentGrammar.Yaml

def isSpace (c : Char) : Bool := c = ' ' || c = '\t'

def isBreak (c : Char) : Bool := c = '\n' || c = '\u2028' || c = '\u2029'

def isGap (c : Char) : Bool := isSpace c || isBreak c

/-- Writes carriage returns and next-line characters as line feeds. -/
def unifyBreaks : List Char → List Char
  | [] => []
  | '\r' :: '\n' :: rest => '\n' :: unifyBreaks rest
  | c :: rest => (if c = '\r' ∨ c = '\u0085' then '\n' else c) :: unifyBreaks rest

def isAllowed (c : Char) : Bool :=
  let n := c.toNat
  c = '\t' || c = '\n' || c = '\r' || (0x20 ≤ n && n ≤ 0x7E) || n = 0x85 ||
    (0xA0 ≤ n && n ≤ 0xD7FF) || (0xE000 ≤ n && n ≤ 0xFFFD) || 0x10000 ≤ n

/-- Lines and columns are counted from zero; the offset is in bytes. -/
structure Place where
  line : Nat
  column : Nat
  offset : Nat

def Place.first : Place := ⟨0, 0, 0⟩

def Place.after (place : Place) (c : Char) : Place where
  line := if isBreak c then place.line + 1 else place.line
  column := if isBreak c then 0 else place.column + 1
  offset := place.offset + c.utf8Size

structure Cursor where
  place : Place
  rest : List Char

namespace Cursor

def drop (n : Nat) (cursor : Cursor) : Cursor where
  place := (cursor.rest.take n).foldl Place.after cursor.place
  rest := cursor.rest.drop n

/-- A marker of documents is three of one character in front of a line, with a blank after. -/
def isAtMarker (mark : Char) (cursor : Cursor) : Bool :=
  cursor.place.column = 0 && [mark, mark, mark].isPrefixOf cursor.rest &&
    (cursor.rest.drop 3).head?.all isGap

def isAtAnyMarker (cursor : Cursor) : Bool := cursor.isAtMarker '-' || cursor.isAtMarker '.'

end Cursor

end AttachmentGrammar.Yaml
