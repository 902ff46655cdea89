import AttachmentGrammar.Grammar.Basic
import AttachmentGrammar.Graph.Basic
import AttachmentGrammar.Report.Basic
/-!
Validating a whole graph: one pass over the edges checks them and counts the attachments of every
node, one pass over the nodes checks the counts.
-/
namespace AttachmentGrammar

/-- Attachments of one node, in all and by the class of the other end if it is known. -/
structure Tally where
  outgoing : UInt32
  incoming : UInt32
  outgoingTo : SortedMap ClassId UInt32
  incomingFrom : SortedMap ClassId UInt32
  deriving DecidableEq

namespace Tally

def zero : Tally := ⟨0, 0, .empty, .empty⟩

instance : Inhabited Tally := ⟨zero⟩

def countClass (counts : SortedMap ClassId UInt32) : Option ClassId → SortedMap ClassId UInt32
  | none => counts
  | some id => counts.insert id ((counts.get? id).getD 0 + 1)

def addOutgoing (c : Tally) (target : Option ClassId) : Tally :=
  { c with outgoing := c.outgoing + 1, outgoingTo := countClass c.outgoingTo target }

def addIncoming (c : Tally) (source : Option ClassId) : Tally :=
  { c with incoming := c.incoming + 1, incomingFrom := countClass c.incomingFrom source }

/-- The roles to check with their counts: the aggregates always, the others where occupied. -/
def byRole (c : Tally) : List (Role ClassId × UInt32) :=
  (.source, c.outgoing) :: (.target, c.incoming) ::
    ((c.outgoingTo.toList.map fun (id, n) => (.sourceOf id, n)) ++
      c.incomingFrom.toList.map fun (id, n) => (.targetOf id, n))

end Tally

namespace Grammar

def classAt? (g : Grammar) (graph : Graph) (id : NodeId) : Option ClassId :=
  (graph.class? id).bind g.classId?

def edgeViolation? (g : Grammar) (graph : Graph) (e : Edge) : Option EdgeViolation := do
  let sourceClass ← graph.class? e.source
  let targetClass ← graph.class? e.target
  if g.allows sourceClass targetClass then none
  else some ⟨e, sourceClass, targetClass, refusal⟩

def roleViolation? (g : Grammar) (node : NodeId) (id : ClassId) (role : Role ClassId)
    (actual : UInt32) : Option CardinalityViolation := do
  let expected ← g.declared? id role
  if expected.contains actual then none
  else some ⟨node, g.vocabulary.name id, g.roleName role, actual, expected⟩

def violationsOf (g : Grammar) (node : NodeId) (id : ClassId) (counts : Tally) :
    List CardinalityViolation :=
  counts.byRole.filterMap fun (role, actual) => g.roleViolation? node id role actual

/-- The counts of one node, read from its two rows in the graph. -/
def countsAt (g : Grammar) (graph : Graph) (id : NodeId) : Tally :=
  (graph.sources id).foldl (fun c source => c.addIncoming (g.classAt? graph source))
    ((graph.targets id).foldl (fun c target => c.addOutgoing (g.classAt? graph target)) .zero)

def countEdge (classIds : SortedMap NodeId (Option ClassId)) (counts : SortedMap NodeId Tally)
    (e : Edge) : SortedMap NodeId Tally :=
  (counts.modify e.source fun c => c.addOutgoing (classIds.get? e.target).join).modify e.target
    fun c => c.addIncoming (classIds.get? e.source).join

/-- The counts of all nodes after one pass over the edges. -/
def edgePass (g : Grammar) (graph : Graph) : SortedMap NodeId Tally :=
  graph.edges.foldl (countEdge (graph.classes.mapValues g.classId?))
    (graph.classes.mapValues fun _ => .zero)

def nodeViolations (g : Grammar) (counts : SortedMap NodeId Tally) (node : NodeId)
    (className : String) : List CardinalityViolation :=
  match g.classId? className with
  | none => []
  | some id => g.violationsOf node id ((counts.get? node).getD .zero)

def unknownClass? (g : Grammar) (node : NodeId) (className : String) : Option UnknownClass :=
  match g.classId? className with
  | none => some ⟨node, className⟩
  | some _ => none

def validate (g : Grammar) (graph : Graph) : Report :=
  let counts := g.edgePass graph
  { edges := graph.edges.filterMap (g.edgeViolation? graph)
    cardinalities := graph.nodes.flatMap fun (node, name) => g.nodeViolations counts node name
    unknownClasses := graph.nodes.filterMap fun (node, name) => g.unknownClass? node name }

end Grammar

end AttachmentGrammar
