import AttachmentGrammar.SortedSet
/-!
Nodes and edges by number, and the sets of them that an edit of a graph can affect.
-/
namespace AttachmentGrammar

abbrev NodeId := UInt64

/-- The order of edges is by source, then by target. -/
structure Edge where
  source : NodeId
  target : NodeId
  deriving DecidableEq, Repr

namespace Edge

instance : Ord Edge where
  compare := compareLex (compareOn source) (compareOn target)

instance : Std.TransOrd Edge :=
  inferInstanceAs (Std.TransCmp (compareLex (compareOn source) (compareOn target)))

instance : Std.LawfulEqOrd Edge where
  compare_self {a} := by
    show compareLex (compareOn source) (compareOn target) a a = .eq
    simp [compareLex_eq_eq, compareOn]
  eq_of_compare {a b} h := by
    have h : compareLex (compareOn source) (compareOn target) a b = .eq := h
    simp only [compareLex_eq_eq, compareOn, Std.LawfulEqCmp.compare_eq_iff_eq] at h
    cases a
    cases b
    simp_all

end Edge

structure Changes where
  nodes : SortedSet NodeId
  edges : SortedSet Edge
  deriving DecidableEq

namespace Changes

def empty : Changes := ⟨.empty, .empty⟩

def isEmpty (c : Changes) : Bool := c.nodes.isEmpty && c.edges.isEmpty

def touchNode (c : Changes) (id : NodeId) : Changes :=
  { c with nodes := c.nodes.insert id }

/-- Both ends of a touched edge are touched as well. -/
def touchEdge (c : Changes) (e : Edge) : Changes where
  nodes := (c.nodes.insert e.source).insert e.target
  edges := c.edges.insert e

def touchEdges (c : Changes) (edges : List Edge) : Changes := edges.foldl touchEdge c

def merge (c d : Changes) : Changes := ⟨c.nodes.union d.nodes, c.edges.union d.edges⟩

end Changes

end AttachmentGrammar
