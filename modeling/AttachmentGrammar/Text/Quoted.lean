import AttachmentGrammar.Text.Printable
import AttachmentGrammar.Text.Utf8
/-!
Texts in double quotes for error messages: what cannot be shown as it is stands as an escape. In a
byte sequence that is no text, the bytes that belong to no character stand as numbers.
-/
namespace AttachmentGrammar.Text

def escaped? (c : Char) : Option (List Char) :=
  if c = '\x00' then some ['\\', '0']
  else if c = '\t' then some ['\\', 't']
  else if c = '\n' then some ['\\', 'n']
  else if c = '\r' then some ['\\', 'r']
  else if c = '"' ∨ c = '\\' then some ['\\', c]
  else if isExtender c ∨ !isPrintable c then
    some ('\\' :: 'u' :: '{' :: Nat.toDigits 16 c.toNat ++ ['}'])
  else none

def shownChar (c : Char) : List Char := (escaped? c).getD [c]

def quoted (s : List Char) : List Char := '"' :: s.flatMap shownChar ++ ['"']

def shownGlyph : Glyph → List Char
  | .char c => shownChar c
  | .byte b =>
    ['\\', 'x', (Nat.digitChar (b.toNat / 16)).toUpper, (Nat.digitChar (b.toNat % 16)).toUpper]

def quotedBytes (bytes : Bytes) : List Char := '"' :: (glyphs bytes).flatMap shownGlyph ++ ['"']

end AttachmentGrammar.Text
