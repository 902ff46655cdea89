import AttachmentGrammar.Json.Plain
import AttachmentGrammar.Rule.Basic
/-!
Rules as JSON. The shape of a statement stands in a field of its own beside the sides.
-/
namespace AttachmentGrammar

namespace Cardinality

def toJson (c : Cardinality) : Json :=
  .ofFields [("min", .ofNat c.low.toNat),
    ("max", (c.high.map fun high => Json.ofNat high.toNat).getD .null)]

def ofJson? (j : Json) : Option Cardinality :=
  match j.record? [⟨"min", .required⟩, ⟨"max", .nullable⟩] with
  | some [some low, high] => do
    let low ← low.word?
    let high ← (high.getD .null).nullable? Json.word?
    return ⟨low, high⟩
  | _ => none

end Cardinality

namespace Token

def toJson (t : Token) : Json :=
  .ofFields [("pattern", .ofText t.pattern.text),
    ("cardinality", (t.cardinality.map Cardinality.toJson).getD .null)]

def ofJson? (j : Json) : Option Token :=
  match j.record? [⟨"pattern", .required⟩, ⟨"cardinality", .defaulted⟩] with
  | some [some pattern, cardinality] => do
    let pattern ← pattern.text?
    let cardinality ← (cardinality.getD .null).nullable? Cardinality.ofJson?
    return ⟨⟨pattern⟩, cardinality⟩
  | _ => none

end Token

namespace Statement

def toJson : Statement → Json
  | attachment sources targets =>
    .ofFields [("shape", .ofText "attachment"), ("sources", .array (sources.map Token.toJson)),
      ("targets", .array (targets.map Token.toJson))]
  | sourceAggregate sources =>
    .ofFields [("shape", .ofText "source_aggregate"),
      ("sources", .array (sources.map Token.toJson))]
  | targetAggregate targets =>
    .ofFields [("shape", .ofText "target_aggregate"),
      ("targets", .array (targets.map Token.toJson))]

def ofShape? (shape : String) (sides : Json) : Option Statement :=
  if shape = "attachment" then
    match sides.record? [⟨"sources", .required⟩, ⟨"targets", .required⟩] with
    | some [some sources, some targets] => do
      let sources ← sources.listOf? Token.ofJson?
      let targets ← targets.listOf? Token.ofJson?
      return attachment sources targets
    | _ => none
  else if shape = "source_aggregate" then
    match sides.record? [⟨"sources", .required⟩] with
    | some [some sources] => (sources.listOf? Token.ofJson?).map sourceAggregate
    | _ => none
  else if shape = "target_aggregate" then
    match sides.record? [⟨"targets", .required⟩] with
    | some [some targets] => (targets.listOf? Token.ofJson?).map targetAggregate
    | _ => none
  else none

/-- The levels of nesting that a statement may have. -/
def nesting : Nat := 125

/-- The shape may stand anywhere among the fields, so the statement is held until it is found. -/
def ofJson? (j : Json) : Option Statement :=
  if j.isPlain nesting then
    match j with
    | .array (shape :: sides) => shape.text?.bind fun shape => ofShape? shape (.array sides)
    | .object fields =>
      match (Json.object fields).record? [⟨"shape", .required⟩] with
      | some [some shape] => shape.text?.bind fun shape => ofShape? shape (.object fields)
      | _ => none
    | _ => none
  else none

end Statement

namespace Rule

def toJson (r : Rule) : Json :=
  .ofFields [("line", .ofNat r.line), ("body", r.statement.toJson)]

def ofJson? (j : Json) : Option Rule :=
  match j.record? [⟨"line", .required⟩, ⟨"body", .required⟩] with
  | some [some line, some statement] => do
    let line ← line.natBelow? UInt64.size
    let statement ← Statement.ofJson? statement
    return ⟨line, statement⟩
  | _ => none

end Rule

def rulesToJson (rules : List Rule) : Json := .array (rules.map Rule.toJson)

def rulesOfJson? (j : Json) : Option (List Rule) := j.listOf? Rule.ofJson?

end AttachmentGrammar
