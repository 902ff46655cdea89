import AttachmentGrammar.Validation
/-!
Keeping a report up to date while a graph is edited. Findings are held by edge and by node, and only
those that a change set names are found anew.
-/
namespace AttachmentGrammar

structure Verdict where
  unknownClass : Option UnknownClass
  cardinalities : List CardinalityViolation
  deriving DecidableEq

namespace Verdict

def empty : Verdict := ⟨none, []⟩

def isEmpty (f : Verdict) : Bool := f.unknownClass.isNone && f.cardinalities.isEmpty

end Verdict

structure Findings where
  edges : SortedMap Edge EdgeViolation
  nodes : SortedMap NodeId Verdict
  deriving DecidableEq

namespace Findings

def atNode (nodes : SortedMap NodeId Verdict) (id : NodeId) : Verdict :=
  (nodes.get? id).getD .empty

def addCardinality (nodes : SortedMap NodeId Verdict) (v : CardinalityViolation) :
    SortedMap NodeId Verdict :=
  let f := atNode nodes v.node
  nodes.insert v.node { f with cardinalities := f.cardinalities ++ [v] }

def addUnknownClass (nodes : SortedMap NodeId Verdict) (v : UnknownClass) :
    SortedMap NodeId Verdict :=
  nodes.insert v.node { atNode nodes v.node with unknownClass := some v }

def ofReport (r : Report) : Findings where
  edges := .ofList (r.edges.map fun v => (v.edge, v))
  nodes := r.unknownClasses.foldl addUnknownClass (r.cardinalities.foldl addCardinality .empty)

def reset (g : Grammar) (graph : Graph) : Findings := ofReport (g.validate graph)

def findAtNode (g : Grammar) (graph : Graph) (id : NodeId) : Verdict :=
  match graph.class? id with
  | none => .empty
  | some className =>
    match g.classId? className with
    | none => ⟨some ⟨id, className⟩, []⟩
    | some classId => ⟨none, g.violationsOf id classId (g.countsAt graph id)⟩

def refreshEdge (g : Grammar) (graph : Graph) (edges : SortedMap Edge EdgeViolation) (e : Edge) :
    SortedMap Edge EdgeViolation :=
  if graph.containsEdge e then
    match g.edgeViolation? graph e with
    | none => edges.erase e
    | some v => (edges.erase e).insert e v
  else edges.erase e

def refreshNode (g : Grammar) (graph : Graph) (nodes : SortedMap NodeId Verdict)
    (id : NodeId) : SortedMap NodeId Verdict :=
  let f := findAtNode g graph id
  if f.isEmpty then nodes.erase id else (nodes.erase id).insert id f

/-- Finds anew what the change set names, in the graph as it is now. -/
def apply (g : Grammar) (graph : Graph) (c : Changes) (f : Findings) : Findings where
  edges := c.edges.toList.foldl (refreshEdge g graph) f.edges
  nodes := c.nodes.toList.foldl (refreshNode g graph) f.nodes

def isValid (f : Findings) : Bool := f.edges.toList.isEmpty && f.nodes.toList.isEmpty

def report (f : Findings) : Report where
  edges := f.edges.values
  cardinalities := f.nodes.values.flatMap Verdict.cardinalities
  unknownClasses := f.nodes.values.filterMap Verdict.unknownClass

end Findings

end AttachmentGrammar
