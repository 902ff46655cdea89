import AttachmentGrammar.Graph.Edit
/-!
Graph documents: the nodes with their classes and the edges, as lists. All nodes are added before
the first edge.
-/
namespace AttachmentGrammar

structure LabelledNode where
  id : NodeId
  className : String
  deriving DecidableEq, Repr

structure Document where
  nodes : List LabelledNode
  edges : List Edge
  deriving DecidableEq, Repr

namespace Graph

def addNodes : List LabelledNode → Graph → Except GraphError Graph
  | [], g => .ok g
  | node :: nodes, g => do
    let (g, _) ← g.edit (.addNode node.id node.className)
    addNodes nodes g

def addEdges : List Edge → Graph → Except GraphError Graph
  | [], g => .ok g
  | e :: edges, g => do
    let (g, _) ← g.edit (.addEdge e)
    addEdges edges g

def ofDocument (d : Document) : Except GraphError Graph := do
  let g ← addNodes d.nodes .empty
  addEdges d.edges g

/-- The nodes by number and the edges by source and target, each once. -/
def toDocument (g : Graph) : Document where
  nodes := g.nodes.map fun (id, className) => ⟨id, className⟩
  edges := g.edges

end Graph

end AttachmentGrammar
