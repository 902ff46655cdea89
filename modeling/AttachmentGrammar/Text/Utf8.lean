/-!
Bytes as text. A byte sequence is read as the longest characters that it encodes; a byte that is
part of none stands for itself, and only a sequence without such bytes is text.
-/
namespace AttachmentGrammar.Text

abbrev Bytes := List UInt8

inductive Glyph where
  | char (c : Char)
  | byte (b : UInt8)
  deriving DecidableEq, Repr

def isTrailing (b : UInt8) : Bool := 0x80 ≤ b && b ≤ 0xBF

def payload (b : UInt8) : Nat := b.toNat % 64

/-- The least and greatest second byte that may follow a lead byte, which keeps out overlong forms,
surrogates and what lies beyond the last code point. -/
def secondRange (lead : UInt8) : UInt8 × UInt8 :=
  if lead = 0xE0 then (0xA0, 0xBF)
  else if lead = 0xED then (0x80, 0x9F)
  else if lead = 0xF0 then (0x90, 0xBF)
  else if lead = 0xF4 then (0x80, 0x8F)
  else (0x80, 0xBF)

def followsLead (lead second : UInt8) : Bool :=
  (secondRange lead).1 ≤ second && second ≤ (secondRange lead).2

/-- The first character of the bytes, and how many bytes after the first belong to it. -/
def firstChar? : Bytes → Option (Char × Nat)
  | [] => none
  | a :: rest =>
    if a < 0x80 then some (Char.ofNat a.toNat, 0)
    else if 0xC2 ≤ a && a ≤ 0xDF then
      match rest with
      | b :: _ =>
        if isTrailing b then some (Char.ofNat (a.toNat % 32 * 64 + payload b), 1) else none
      | _ => none
    else if 0xE0 ≤ a && a ≤ 0xEF then
      match rest with
      | b :: c :: _ =>
        if followsLead a b && isTrailing c then
          some (Char.ofNat ((a.toNat % 16 * 64 + payload b) * 64 + payload c), 2)
        else none
      | _ => none
    else if 0xF0 ≤ a && a ≤ 0xF4 then
      match rest with
      | b :: c :: d :: _ =>
        if followsLead a b && isTrailing c && isTrailing d then
          some (Char.ofNat (((a.toNat % 8 * 64 + payload b) * 64 + payload c) * 64 + payload d), 3)
        else none
      | _ => none
    else none

/-- The first argument counts the bytes that belong to the character before. -/
def glyphsAfter : Nat → Bytes → List Glyph
  | _, [] => []
  | n + 1, _ :: rest => glyphsAfter n rest
  | 0, b :: rest =>
    match firstChar? (b :: rest) with
    | some (c, n) => .char c :: glyphsAfter n rest
    | none => .byte b :: glyphsAfter 0 rest

def glyphs (bytes : Bytes) : List Glyph := glyphsAfter 0 bytes

def charsOf? (glyphs : List Glyph) : Option (List Char) :=
  glyphs.mapM fun g => match g with
    | .char c => some c
    | .byte _ => none

def decode? (bytes : Bytes) : Option String := (charsOf? (glyphs bytes)).map String.ofList

def encode (s : String) : Bytes := s.toUTF8.toList

end AttachmentGrammar.Text
