import AttachmentGrammar.Record
import AttachmentGrammar.Text.Cut
import AttachmentGrammar.Text.Numeral
/-!
YAML values made of scalars, sequences and mappings. A scalar is kept as text; only one without
quotes can stand for a number, and only an empty one without quotes for something left out.
-/
namespace AttachmentGrammar

inductive Yaml where
  | scalar (isQuoted : Bool) (text : List Char)
  | sequence (items : List Yaml)
  | mapping (entries : List (Yaml × Yaml))

namespace Yaml

def absent : Yaml := scalar false []

instance : Inhabited Yaml := ⟨absent⟩

def text? : Yaml → Option String
  | scalar _ text => some (String.ofList text)
  | _ => none

def items? : Yaml → Option (List Yaml)
  | sequence items => some items
  | scalar false [] => some []
  | _ => none

def listOf? {α : Type} (item? : Yaml → Option α) (y : Yaml) : Option (List α) :=
  y.items?.bind fun items => items.mapM item?

def namedEntry? (entry : Yaml × Yaml) : Option (String × Yaml) :=
  entry.1.text?.map fun name => (name, entry.2)

def entries? : Yaml → Option (List (Yaml × Yaml))
  | mapping entries => some entries
  | scalar false [] => some []
  | _ => none

/-- The values of the fields of a record, which is a mapping. -/
def record? (fields : List Field) (y : Yaml) : Option (List (Option Yaml)) := do
  let entries ← y.entries?
  let found ← entries.mapM namedEntry?
  (Layout.named found).values? fields

def digitIn? (base : Nat) (c : Char) : Option Nat :=
  let value :=
    if c.isDigit then c.toNat - '0'.toNat
    else if c.isLower then c.toNat - 'a'.toNat + 10
    else if c.isUpper then c.toNat - 'A'.toNat + 10
    else base
  if value < base then some value else none

def readIn? (base : Nat) (digits : List Char) : Option Nat :=
  if digits = [] then none
  else digits.foldlM (fun n c => (digitIn? base c).map (n * base + ·)) 0

/-- A decimal number has no needless zero in front. -/
def readNatural? (text : List Char) : Option Nat :=
  match Text.dropPlus text with
  | '0' :: 'x' :: digits => readIn? 16 digits
  | '0' :: 'o' :: digits => readIn? 8 digits
  | '0' :: 'b' :: digits => readIn? 2 digits
  | '0' :: _ :: _ => none
  | digits => readIn? 10 digits

def longWord? : Yaml → Option UInt64
  | scalar false text =>
    ((readNatural? text).filter (· < UInt64.size)).map UInt64.ofNat
  | _ => none

end Yaml

end AttachmentGrammar
