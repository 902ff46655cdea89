import AttachmentGrammar.Graph.Basic
/-!
Edits of a graph. An edit has a result, and leaves a graph. It fails if a node or edge that it needs
is absent, or if a node that it adds is present; otherwise its result is the set of nodes and edges
that it can affect.
-/
namespace AttachmentGrammar

inductive GraphError where
  | duplicateNode (id : NodeId)
  | missingNode (id : NodeId)
  | missingEdge (edge : Edge)
  deriving DecidableEq, Repr

def GraphError.message : GraphError → String
  | duplicateNode id => s!"node {id} already exists"
  | missingNode id => s!"node {id} not found"
  | missingEdge edge => s!"edge {edge.source} -> {edge.target} not found"

inductive Edit where
  | addNode (id : NodeId) (className : String)
  | setClass (id : NodeId) (className : String)
  | removeNode (id : NodeId)
  | addEdge (edge : Edge)
  | removeEdge (edge : Edge)
  deriving DecidableEq, Repr

/-- The result of an edit beside the graph that it leaves, whether it succeeds or not. -/
structure Edited where
  graph : Graph
  result : Except GraphError Changes

namespace Graph

/-- Goes on if the node is there. -/
def withNode (g : Graph) (id : NodeId) (edited : Edited) : Edited :=
  if g.containsNode id then edited else ⟨g, .error (.missingNode id)⟩

def addNode (g : Graph) (id : NodeId) (className : String) : Edited :=
  if g.containsNode id then ⟨g, .error (.duplicateNode id)⟩
  else {
    graph := {
      classes := g.classes.insert id className
      outgoing := g.outgoing.insert id .empty
      incoming := g.incoming.insert id .empty
      edgeCount := g.edgeCount }
    result := .ok (Changes.empty.touchNode id) }

/-- The neighbours are touched as well: what they attach to has changed its class. -/
def changesAround (g : Graph) (id : NodeId) : Changes :=
  (Changes.empty.touchNode id).touchEdges (g.incident id)

def setClass (g : Graph) (id : NodeId) (className : String) : Edited :=
  g.withNode id {
    graph := { g with classes := g.classes.insert id className }
    result := .ok (g.changesAround id) }

/-- Takes an edge out of the row of its target. -/
def unlinkTarget (source : NodeId) (g : Graph) (target : NodeId) : Graph :=
  { g with
    incoming := g.incoming.modify target fun sources => sources.erase source
    edgeCount := g.edgeCount - 1 }

/-- Takes an edge out of the row of its source. -/
def unlinkSource (target : NodeId) (g : Graph) (source : NodeId) : Graph :=
  { g with
    outgoing := g.outgoing.modify source fun targets => targets.erase target
    edgeCount := g.edgeCount - 1 }

def dropOutgoing (g : Graph) (id : NodeId) : Graph :=
  (g.targets id).foldl (unlinkTarget id) { g with outgoing := g.outgoing.erase id }

def dropIncoming (g : Graph) (id : NodeId) : Graph :=
  (g.sources id).foldl (unlinkSource id) { g with incoming := g.incoming.erase id }

def dropClass (g : Graph) (id : NodeId) : Graph := { g with classes := g.classes.erase id }

/-- All edges at the node go with it; one from the node to itself goes with the outgoing ones. -/
def removeNode (g : Graph) (id : NodeId) : Edited :=
  g.withNode id {
    graph := ((g.dropOutgoing id).dropIncoming id).dropClass id
    result := .ok (g.changesAround id) }

/-- Puts an edge into the row of its source; a source without a row gets one. -/
def linkSource (g : Graph) (e : Edge) : Graph :=
  { g with outgoing := g.outgoing.modifyD e.source .empty fun targets => targets.insert e.target }

/-- Puts an edge into the row of its target, which gets one if it has none, and counts the edge. -/
def linkTarget (g : Graph) (e : Edge) : Graph :=
  { g with
    incoming := g.incoming.modifyD e.target .empty fun sources => sources.insert e.source
    edgeCount := g.edgeCount + 1 }

/-- An edge that is present already stays as it is, and nothing is affected. -/
def addEdge (g : Graph) (e : Edge) : Edited :=
  g.withNode e.source <| g.withNode e.target <|
    if g.containsEdge e then ⟨g.linkSource e, .ok .empty⟩
    else ⟨(g.linkSource e).linkTarget e, .ok (Changes.empty.touchEdge e)⟩

/-- Only the row of the source shows whether the edge was there. -/
def removeEdge (g : Graph) (e : Edge) : Edited :=
  let unlinked :=
    { g with outgoing := g.outgoing.modify e.source fun targets => targets.erase e.target }
  if g.containsEdge e then
    ⟨unlinkTarget e.source unlinked e.target, .ok (Changes.empty.touchEdge e)⟩
  else ⟨unlinked, .error (.missingEdge e)⟩

def perform (g : Graph) : Edit → Edited
  | .addNode id className => g.addNode id className
  | .setClass id className => g.setClass id className
  | .removeNode id => g.removeNode id
  | .addEdge e => g.addEdge e
  | .removeEdge e => g.removeEdge e

/-- For a caller that goes on with the graph only if the edit succeeds. -/
def edit (g : Graph) (e : Edit) : Except GraphError (Graph × Changes) :=
  let edited := g.perform e
  edited.result.map fun c => (edited.graph, c)

def step (g : Graph) (e : Edit) : Graph := (g.perform e).graph

def run : List Edit → Graph → Graph
  | [], g => g
  | e :: edits, g => run edits (g.step e)

end Graph

end AttachmentGrammar
