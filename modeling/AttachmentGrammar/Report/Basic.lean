import AttachmentGrammar.Cardinality
import AttachmentGrammar.Graph.Changes
import AttachmentGrammar.Role
/-!
What validating a graph can find: edges that the grammar does not permit, nodes with too few or too
many attachments in a role, and nodes of an unknown class.
-/
namespace AttachmentGrammar

structure EdgeViolation where
  edge : Edge
  sourceClass : String
  targetClass : String
  reason : String
  deriving DecidableEq, Repr

def refusal : String := "attachment not permitted by grammar"

def EdgeViolation.message (v : EdgeViolation) : String :=
  s!"{v.edge.source} ({v.sourceClass}) -> {v.edge.target} ({v.targetClass}): {v.reason}"

structure CardinalityViolation where
  node : NodeId
  className : String
  role : Role String
  actual : UInt32
  expected : Cardinality
  deriving DecidableEq, Repr

def CardinalityViolation.message (v : CardinalityViolation) : String :=
  s!"{v.node} ({v.className}) as {v.role}: has {v.actual}, expected {v.expected}"

structure UnknownClass where
  node : NodeId
  className : String
  deriving DecidableEq, Repr

def UnknownClass.message (v : UnknownClass) : String :=
  s!"{v.node}: class `{v.className}` is not in the grammar"

structure Report where
  edges : List EdgeViolation
  cardinalities : List CardinalityViolation
  unknownClasses : List UnknownClass
  deriving DecidableEq, Repr

namespace Report

def count (r : Report) : Nat :=
  r.edges.length + r.cardinalities.length + r.unknownClasses.length

def isValid (r : Report) : Bool := r.count = 0

theorem isValid_iff {r : Report} :
    r.isValid = true ↔ r.edges = [] ∧ r.cardinalities = [] ∧ r.unknownClasses = [] := by
  rw [isValid, decide_eq_true_eq, count, Nat.add_eq_zero_iff, Nat.add_eq_zero_iff,
    List.length_eq_zero_iff, List.length_eq_zero_iff, List.length_eq_zero_iff, and_assoc]

/-- Every node with a part in some violation. -/
def involvedNodes (r : Report) : SortedSet NodeId :=
  .ofList ((r.edges.flatMap fun v => [v.edge.source, v.edge.target]) ++
    r.cardinalities.map (·.node) ++ r.unknownClasses.map (·.node))

def involvedEdges (r : Report) : SortedSet Edge := .ofList (r.edges.map (·.edge))

/-- One line for each violation, those of unknown classes first. -/
def messages (r : Report) : List String :=
  r.unknownClasses.map UnknownClass.message ++ r.edges.map EdgeViolation.message ++
    r.cardinalities.map CardinalityViolation.message

end Report

end AttachmentGrammar
