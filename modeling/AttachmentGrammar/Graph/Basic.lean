import AttachmentGrammar.Graph.Changes
import AttachmentGrammar.SortedMap
/-!
Directed graphs over nodes with a class each. Every edge is held twice, with its source and with
its target, so that both neighbourhoods of a node are at hand.
-/
namespace AttachmentGrammar

structure Graph where
  classes : SortedMap NodeId String
  outgoing : SortedMap NodeId (SortedSet NodeId)
  incoming : SortedMap NodeId (SortedSet NodeId)
  edgeCount : Nat
  deriving DecidableEq

namespace Graph

def empty : Graph := ⟨.empty, .empty, .empty, 0⟩

instance : Inhabited Graph := ⟨empty⟩

def class? (g : Graph) (id : NodeId) : Option String := g.classes.get? id

def containsNode (g : Graph) (id : NodeId) : Bool := g.classes.contains id

def targets (g : Graph) (id : NodeId) : List NodeId :=
  ((g.outgoing.get? id).getD .empty).toList

def sources (g : Graph) (id : NodeId) : List NodeId :=
  ((g.incoming.get? id).getD .empty).toList

def containsEdge (g : Graph) (e : Edge) : Bool := (g.targets e.source).contains e.target

def nodeCount (g : Graph) : Nat := g.classes.size

def nodes (g : Graph) : List (NodeId × String) := g.classes.toList

/-- All edges, by source and then by target. -/
def edges (g : Graph) : List Edge :=
  g.outgoing.toList.flatMap fun (source, targets) =>
    targets.toList.map fun target => ⟨source, target⟩

/-- The edges at a node, those that leave it first. -/
def incident (g : Graph) (id : NodeId) : List Edge :=
  ((g.targets id).map fun target => ⟨id, target⟩) ++ (g.sources id).map fun source => ⟨source, id⟩

end Graph

end AttachmentGrammar
