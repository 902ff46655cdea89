import AttachmentGrammar.Graph.Document
import AttachmentGrammar.Json.Parser
/-!
Graph documents as JSON. An edge is an array of its two ends.
-/
namespace AttachmentGrammar

namespace Edge

def toJson (e : Edge) : Json := .array [.ofNat e.source.toNat, .ofNat e.target.toNat]

def ofJson? : Json → Option Edge
  | .array [source, target] => do
    let source ← source.longWord?
    let target ← target.longWord?
    return ⟨source, target⟩
  | _ => none

end Edge

namespace LabelledNode

def toJson (n : LabelledNode) : Json :=
  .ofFields [("id", .ofNat n.id.toNat), ("class", .ofText n.className)]

def ofJson? (j : Json) : Option LabelledNode :=
  match j.record? [⟨"id", .required⟩, ⟨"class", .required⟩] with
  | some [some id, some className] => do
    let id ← id.longWord?
    let className ← className.text?
    return ⟨id, className⟩
  | _ => none

end LabelledNode

namespace Document

def toJson (d : Document) : Json :=
  .ofFields [("nodes", .array (d.nodes.map LabelledNode.toJson)),
    ("edges", .array (d.edges.map Edge.toJson))]

def ofJson? (j : Json) : Option Document :=
  match j.record? [⟨"nodes", .defaulted⟩, ⟨"edges", .defaulted⟩] with
  | some [nodes, edges] => do
    let nodes ← (nodes.getD (.array [])).listOf? LabelledNode.ofJson?
    let edges ← (edges.getD (.array [])).listOf? Edge.ofJson?
    return ⟨nodes, edges⟩
  | _ => none

end Document

end AttachmentGrammar
