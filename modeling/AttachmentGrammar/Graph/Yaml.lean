import AttachmentGrammar.Graph.Document
import AttachmentGrammar.Yaml.Parser
/-!
Graph documents as YAML, with the fields that they have as JSON.
-/
namespace AttachmentGrammar

def Edge.ofYaml? (y : Yaml) : Option Edge :=
  match y.items? with
  | some [source, target] => do
    let source ← source.longWord?
    let target ← target.longWord?
    return ⟨source, target⟩
  | _ => none

def LabelledNode.ofYaml? (y : Yaml) : Option LabelledNode :=
  match y.record? [⟨"id", .required⟩, ⟨"class", .required⟩] with
  | some [some id, some className] => do
    let id ← id.longWord?
    let className ← className.text?
    return ⟨id, className⟩
  | _ => none

def Document.ofYaml? (y : Yaml) : Option Document :=
  match y.record? [⟨"nodes", .defaulted⟩, ⟨"edges", .defaulted⟩] with
  | some [nodes, edges] => do
    let nodes ← (nodes.getD .absent).listOf? LabelledNode.ofYaml?
    let edges ← (edges.getD .absent).listOf? Edge.ofYaml?
    return ⟨nodes, edges⟩
  | _ => none

end AttachmentGrammar
