import AttachmentGrammar.Graph.Json
import AttachmentGrammar.Report.Basic
import AttachmentGrammar.Rule.Json
/-!
Reports as JSON, written over several lines for people to read and read back by editors.
-/
namespace AttachmentGrammar

namespace Role

def toJson : Role String → Json
  | source => .ofFields [("role", .ofText "source")]
  | target => .ofFields [("role", .ofText "target")]
  | sourceOf other => .ofFields [("role", .ofText "source_of"), ("class", .ofText other)]
  | targetOf other => .ofFields [("role", .ofText "target_of"), ("class", .ofText other)]

/-- Where the name of a role has a name itself, it may also be the only field of an object, with the
value null. -/
def namedTag? : Json → Option String
  | .object [(name, .null)] => (Json.unescape? name).map String.ofList
  | j => j.text?

def ofTag? (tag : String) (other : Option Json) : Option (Role String) :=
  if tag = "source" then if other.all (· == .null) then some source else none
  else if tag = "target" then if other.all (· == .null) then some target else none
  else if tag = "source_of" then (other.bind Json.text?).map sourceOf
  else if tag = "target_of" then (other.bind Json.text?).map targetOf
  else none

def ofJson? : Json → Option (Role String)
  | .array [tag, other] => tag.text?.bind fun tag => ofTag? tag (some other)
  | .object fields =>
    match (Json.object fields).record? [⟨"role", .required⟩, ⟨"class", .defaulted⟩] with
    | some [some tag, other] => (namedTag? tag).bind fun tag => ofTag? tag other
    | _ => none
  | _ => none

end Role

namespace EdgeViolation

def toJson (v : EdgeViolation) : Json :=
  .ofFields [("source", .ofNat v.edge.source.toNat), ("target", .ofNat v.edge.target.toNat),
    ("source_class", .ofText v.sourceClass), ("target_class", .ofText v.targetClass),
    ("reason", .ofText v.reason)]

def ofJson? (j : Json) : Option EdgeViolation :=
  match j.record? [⟨"source", .required⟩, ⟨"target", .required⟩, ⟨"source_class", .required⟩,
    ⟨"target_class", .required⟩, ⟨"reason", .required⟩] with
  | some [some source, some target, some sourceClass, some targetClass, some reason] => do
    let source ← source.longWord?
    let target ← target.longWord?
    let sourceClass ← sourceClass.text?
    let targetClass ← targetClass.text?
    let reason ← reason.text?
    return ⟨⟨source, target⟩, sourceClass, targetClass, reason⟩
  | _ => none

end EdgeViolation

namespace CardinalityViolation

def toJson (v : CardinalityViolation) : Json :=
  .ofFields [("node", .ofNat v.node.toNat), ("class", .ofText v.className),
    ("role", v.role.toJson), ("actual", .ofNat v.actual.toNat), ("expected", v.expected.toJson)]

def ofJson? (j : Json) : Option CardinalityViolation :=
  match j.record? [⟨"node", .required⟩, ⟨"class", .required⟩, ⟨"role", .required⟩,
    ⟨"actual", .required⟩, ⟨"expected", .required⟩] with
  | some [some node, some className, some role, some actual, some expected] => do
    let node ← node.longWord?
    let className ← className.text?
    let role ← Role.ofJson? role
    let actual ← actual.word?
    let expected ← Cardinality.ofJson? expected
    return ⟨node, className, role, actual, expected⟩
  | _ => none

end CardinalityViolation

namespace UnknownClass

def toJson (v : UnknownClass) : Json :=
  .ofFields [("node", .ofNat v.node.toNat), ("class", .ofText v.className)]

def ofJson? (j : Json) : Option UnknownClass :=
  match j.record? [⟨"node", .required⟩, ⟨"class", .required⟩] with
  | some [some node, some className] => do
    let node ← node.longWord?
    let className ← className.text?
    return ⟨node, className⟩
  | _ => none

end UnknownClass

namespace Report

/-- The unknown classes are left out when there are none. -/
def toJson (r : Report) : Json :=
  .ofFields ([("edge_violations", .array (r.edges.map EdgeViolation.toJson)),
    ("cardinality_violations", .array (r.cardinalities.map CardinalityViolation.toJson))] ++
    if r.unknownClasses = [] then []
    else [("unknown_classes", .array (r.unknownClasses.map UnknownClass.toJson))])

def ofJson? (j : Json) : Option Report :=
  match j.record? [⟨"edge_violations", .required⟩, ⟨"cardinality_violations", .required⟩,
    ⟨"unknown_classes", .defaulted⟩] with
  | some [some edges, some cardinalities, unknownClasses] => do
    let edges ← edges.listOf? EdgeViolation.ofJson?
    let cardinalities ← cardinalities.listOf? CardinalityViolation.ofJson?
    let unknownClasses ← (unknownClasses.getD (.array [])).listOf? UnknownClass.ofJson?
    return ⟨edges, cardinalities, unknownClasses⟩
  | _ => none

end Report

end AttachmentGrammar
