import AttachmentGrammar.Text.Cut
/-!
Class patterns. A star stands for any run of characters, the empty one too; a pattern without a
star names one class.
-/
namespace AttachmentGrammar

structure Pattern where
  text : String
  deriving DecidableEq, Repr

namespace Pattern

def wildcard : Char := '*'

def hasWildcard (p : Pattern) : Bool := p.text.toList.contains wildcard

/-- Finds the pieces one after the other, each as early as it goes. -/
def skipPieces : List (List Char) → List Char → Option (List Char)
  | [], s => some s
  | piece :: pieces, s => (Text.afterFirst piece s).bind (skipPieces pieces)

def fits : List (List Char) → List Char → Bool
  | [], _ => false
  | [literal], s => literal = s
  | first :: rest, s =>
    first.isPrefixOf s &&
      match skipPieces rest.dropLast (s.drop first.length) with
      | none => false
      | some remaining => (rest.getLastD []).isSuffixOf remaining

def covers (p : Pattern) (name : String) : Bool :=
  fits (p.text.toList.splitOn wildcard) name.toList

end Pattern

end AttachmentGrammar
