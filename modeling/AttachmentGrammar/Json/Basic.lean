import AttachmentGrammar.Json.Escape
import AttachmentGrammar.Record
import AttachmentGrammar.Text.Numeral
/-!
JSON values. Strings, field names and numbers are kept as they are written; what they stand for is
read from them on demand.
-/
namespace AttachmentGrammar

inductive Json where
  | null
  | bool (value : Bool)
  | number (written : List Char)
  | string (written : List Char)
  | array (items : List Json)
  | object (fields : List (List Char × Json))
  deriving BEq

namespace Json

instance : Inhabited Json := ⟨null⟩

def ofText (s : String) : Json := string (escape s.toList)

def ofNat (n : Nat) : Json := number (Text.decimal n)

def ofFields (fields : List (String × Json)) : Json :=
  object (fields.map fun (name, value) => (escape name.toList, value))

def text? : Json → Option String
  | string written => (unescape? written).map String.ofList
  | _ => none

/-- A number with a sign, a fraction or an exponent is no natural number, whatever its value. -/
def nat? : Json → Option Nat
  | number written => Text.readDecimal written
  | _ => none

def natBelow? (limit : Nat) (j : Json) : Option Nat := j.nat?.filter (· < limit)

def word? (j : Json) : Option UInt32 := (j.natBelow? UInt32.size).map UInt32.ofNat

def longWord? (j : Json) : Option UInt64 := (j.natBelow? UInt64.size).map UInt64.ofNat

def bool? : Json → Option Bool
  | bool value => some value
  | _ => none

def items? : Json → Option (List Json)
  | array items => some items
  | _ => none

/-- The fields by name; an object with a field name that is no text has none. -/
def fields? : Json → Option (List (String × Json))
  | object fields => fields.mapM fun (name, value) => do
    let name ← unescape? name
    return (String.ofList name, value)
  | _ => none

def listOf? {α : Type} (item? : Json → Option α) (j : Json) : Option (List α) :=
  j.items?.bind fun items => items.mapM item?

def layout? : Json → Option (Layout Json)
  | array items => some (.positional items)
  | object fields => (object fields).fields?.map .named
  | _ => none

/-- The values of the fields of a record, an object or an array of them. -/
def record? (fields : List Field) (j : Json) : Option (List (Option Json)) :=
  j.layout?.bind (Layout.values? fields)

def nullable? {α : Type} (value? : Json → Option α) : Json → Option (Option α)
  | null => some none
  | j => (value? j).map some

end Json

end AttachmentGrammar
