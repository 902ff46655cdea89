import AttachmentGrammar.Pattern
import AttachmentGrammar.SortedSet
import AttachmentGrammar.Text.Blank
import AttachmentGrammar.Text.Lines
/-!
The known classes. Names are trimmed, the empty name is no class, and a class is numbered by the
place of its name in code point order.
-/
namespace AttachmentGrammar

abbrev ClassId := Nat

structure Vocabulary where
  names : SortedSet String
  deriving DecidableEq

namespace Vocabulary

def ofNames (names : List String) : Vocabulary where
  names := .ofList
    ((names.map fun name => String.ofList (Text.trim name.toList)).filter (· ≠ ""))

/-- One name a line; blank lines and lines that start with a number sign are skipped. -/
def ofClassList (text : String) : Vocabulary :=
  ofNames
    (((Text.lines text.toList).map Text.trim).filter (fun line => line.head? ≠ some '#')
      |>.map String.ofList)

def size (v : Vocabulary) : Nat := v.names.size

def contains (v : Vocabulary) (name : String) : Bool := v.names.toList.contains name

def id? (v : Vocabulary) (name : String) : Option ClassId := v.names.toList.idxOf? name

def name? (v : Vocabulary) (id : ClassId) : Option String := v.names.toList[id]?

/-- A number that names no class gives the empty text, which is no class name. -/
def name (v : Vocabulary) (id : ClassId) : String := (v.name? id).getD ""

def entries (v : Vocabulary) : List (ClassId × String) :=
  v.names.toList.zipIdx.map fun (name, id) => (id, name)

/-- The classes that a pattern covers, in increasing order. -/
def expand (v : Vocabulary) (p : Pattern) : List ClassId :=
  if p.hasWildcard then (v.entries.filter fun e => p.covers e.2).map (·.1)
  else (v.id? p.text).toList

end Vocabulary

end AttachmentGrammar
