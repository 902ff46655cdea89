import AttachmentGrammar.Grammar.Compile
import AttachmentGrammar.Proofs.Revalidation.Upkeep
/-!
What a change set leaves out and what it holds. Main statement: outside the change set of an edit
neither the graph nor its full report changes, and the set holds only the edited edge, or the edges
at the edited node, with their ends.
-/
namespace AttachmentGrammar

/-- The edit is of the edge, or of a node that the edge starts or ends at. -/
def Edit.ConcernsEdge : Edit → Edge → Prop
  | .addNode id _, e | .setClass id _, e | .removeNode id, e => e.source = id ∨ e.target = id
  | .addEdge e', e | .removeEdge e', e => e = e'

/-- The edit is of the node, or of an edge that starts or ends at it. -/
def Edit.ConcernsNode : Edit → NodeId → Prop
  | .addNode id _, x | .setClass id _, x | .removeNode id, x => x = id
  | .addEdge e, x | .removeEdge e, x => x = e.source ∨ x = e.target

namespace Changes

/-- At what the set leaves out, two graphs look alike and their full reports say the same. -/
structure Covers (c : Changes) (g : Grammar) (graph graph' : Graph) : Prop where
  alikeAt : ∀ x, x ∉ c.nodes → graph.AlikeAt graph' x
  unknownClasses_eq : ∀ x, x ∉ c.nodes →
    (g.validate graph').unknownClasses.filter (fun v => v.node = x) =
      (g.validate graph).unknownClasses.filter fun v => v.node = x
  cardinalities_eq : ∀ x, x ∉ c.nodes →
    (g.validate graph').cardinalities.filter (fun v => v.node = x) =
      (g.validate graph).cardinalities.filter fun v => v.node = x
  mem_edges_iff : ∀ e, e ∉ c.edges → (e ∈ graph'.edges ↔ e ∈ graph.edges)
  class?_ends : ∀ e, e ∉ c.edges → e ∈ graph.edges →
    graph'.class? e.source = graph.class? e.source ∧ graph'.class? e.target = graph.class? e.target
  violations_eq : ∀ e, e ∉ c.edges →
    (g.validate graph').edges.filter (fun v => v.edge = e) =
      (g.validate graph).edges.filter fun v => v.edge = e

/-- The set holds what the edit is about, and is empty only where an edge is added again. -/
structure Fits (c : Changes) (edit : Edit) (graph graph' : Graph) : Prop where
  mem_edges_iff : ∀ e, e ∈ c.edges ↔
    c.isEmpty = false ∧ edit.ConcernsEdge e ∧ (e ∈ graph.edges ∨ e ∈ graph'.edges)
  mem_nodes_iff : ∀ x, x ∈ c.nodes ↔
    c.isEmpty = false ∧ (edit.ConcernsNode x ∨ ∃ e ∈ c.edges, x = e.source ∨ x = e.target)
  isEmpty_iff : c.isEmpty = true ↔ ∃ e, edit = .addEdge e ∧ graph' = graph

end Changes

variable {g : Grammar} {graph graph' : Graph} {c : Changes} {edit : Edit}

theorem Changes.covers_of_edit (g : Grammar) (hg : graph.Mirrored)
    (h : graph.edit edit = .ok (graph', c)) : c.Covers g graph graph' := by
  have hg' : graph'.Mirrored := Graph.mirrored_of_edit hg h
  have hnode {x : NodeId} (hx : x ∉ c.nodes) : graph.AlikeAt graph' x :=
    Graph.alikeAt_of_untouched hg h fun ht => hx ((Graph.mem_changes_nodes hg h x).mpr ht)
  have hedge {e : Edge} (he : e ∉ c.edges) : ¬edit.TouchesEdge graph e :=
    fun ht => he ((Graph.mem_changes_edges hg h e).mpr ht)
  constructor
  case alikeAt => exact fun x hx => hnode hx
  case unknownClasses_eq =>
    intro x hx
    rw [Findings.filter_unknownClasses, Findings.filter_unknownClasses,
      Findings.findAtNode_of_alikeAt (hnode hx)]
  case cardinalities_eq =>
    intro x hx
    rw [Findings.filter_cardinalities hg', Findings.filter_cardinalities hg,
      Findings.findAtNode_of_alikeAt (hnode hx)]
  case mem_edges_iff => exact fun e he => Graph.mem_edges_iff_of_untouched hg h (hedge he)
  case class?_ends => exact fun e he hm => Graph.class?_ends_of_untouched hg h hm (hedge he)
  case violations_eq =>
    intro e he
    rw [Findings.filter_edges, Findings.filter_edges,
      Findings.findAtEdge?_of_untouched hg h (hedge he)]

namespace Graph

/-- Every edit touches some node, unless it adds an edge that is there. -/
theorem isEmpty_changes_iff (hg : graph.Mirrored) (h : graph.edit edit = .ok (graph', c)) :
    c.isEmpty = true ↔ ∃ e ∈ graph.edges, edit = .addEdge e := by
  constructor
  · intro hempty
    have hnone (x : NodeId) : ¬edit.TouchesNode graph x :=
      fun ht => (Changes.not_mem_of_isEmpty hempty).1 x ((mem_changes_nodes hg h x).mpr ht)
    cases edit with
    | addNode id name => exact (hnone id rfl).elim
    | setClass id name => exact (hnone id (.inl rfl)).elim
    | removeNode id => exact (hnone id (.inl rfl)).elim
    | addEdge e =>
      have hold : e ∈ graph.edges := by
        by_contra hnew
        exact hnone e.source ⟨hnew, .inl rfl⟩
      exact ⟨e, hold, rfl⟩
    | removeEdge e => exact (hnone e.source (.inl rfl)).elim
  · rintro ⟨e, he, rfl⟩
    obtain ⟨-, -, ⟨-, rfl, -⟩ | ⟨hnew, -, -⟩⟩ := addEdge_eq_ok.mp h
    · rfl
    · rw [containsEdge_iff.mpr he] at hnew
      cases hnew

/-- Adding an edge changes the graph unless the edge is there. -/
theorem addEdge_eq_self_iff (hg : graph.Mirrored) {e : Edge}
    (h : graph.edit (.addEdge e) = .ok (graph', c)) : graph' = graph ↔ e ∈ graph.edges := by
  constructor
  · rintro rfl
    exact (mem_edges_of_edit hg h e).mpr (.inl rfl)
  · intro he
    obtain ⟨-, -, ⟨-, -, hsame⟩ | ⟨hnew, -, -⟩⟩ := addEdge_eq_ok.mp h
    · exact hsame
    · rw [containsEdge_iff.mpr he] at hnew
      cases hnew

/-- A touched edge is one that the edit is about, there before the edit or after it. -/
theorem touchesEdge_iff (hg : graph.Mirrored) (h : graph.edit edit = .ok (graph', c)) {e : Edge} :
    edit.TouchesEdge graph e ↔
      c.isEmpty = false ∧ edit.ConcernsEdge e ∧ (e ∈ graph.edges ∨ e ∈ graph'.edges) := by
  rw [← Bool.not_eq_true, isEmpty_changes_iff hg h, mem_edges_of_edit hg h]
  cases edit with
  | addNode id name =>
    have hid : graph.containsNode id = false := (addNode_eq_ok.mp h).1
    refine iff_of_false (fun hx => hx) fun hx => ?_
    obtain ⟨-, hends, he⟩ := hx
    obtain ⟨hs, ht⟩ := hg.ends_ne_of_absent hid (or_self_iff.mp he)
    exact hends.elim hs ht
  | setClass id name => simp [Edit.TouchesEdge, Edit.ConcernsEdge, Edit.EdgeAfter, and_comm]
  | removeNode id =>
    simp only [Edit.TouchesEdge, Edit.ConcernsEdge, Edit.EdgeAfter]
    grind
  | addEdge e' =>
    simp only [Edit.TouchesEdge, Edit.ConcernsEdge, Edit.EdgeAfter]
    grind
  | removeEdge e' =>
    have hold : e' ∈ graph.edges := containsEdge_iff.mp (removeEdge_eq_ok.mp h).1
    simp only [Edit.TouchesEdge, Edit.ConcernsEdge, Edit.EdgeAfter]
    grind

/-- A touched node is one that the edit is about, or an end of a touched edge. -/
theorem touchesNode_iff (hg : graph.Mirrored) (h : graph.edit edit = .ok (graph', c)) {x : NodeId} :
    edit.TouchesNode graph x ↔ c.isEmpty = false ∧
      (edit.ConcernsNode x ∨ ∃ e, edit.TouchesEdge graph e ∧ (x = e.source ∨ x = e.target)) := by
  rw [← Bool.not_eq_true, isEmpty_changes_iff hg h]
  cases edit with
  | addNode id name => simp [Edit.TouchesNode, Edit.ConcernsNode, Edit.TouchesEdge]
  | setClass id name => simp [Edit.TouchesNode, Edit.ConcernsNode]
  | removeNode id => simp [Edit.TouchesNode, Edit.ConcernsNode]
  | addEdge e =>
    simp only [Edit.TouchesNode, Edit.ConcernsNode, Edit.TouchesEdge]
    grind
  | removeEdge e => simp [Edit.TouchesNode, Edit.ConcernsNode, Edit.TouchesEdge]

end Graph

theorem Changes.fits_of_edit (hg : graph.Mirrored) (h : graph.edit edit = .ok (graph', c)) :
    c.Fits edit graph graph' where
  mem_edges_iff e := (Graph.mem_changes_edges hg h e).trans (Graph.touchesEdge_iff hg h)
  mem_nodes_iff x := by
    simp only [Graph.mem_changes_nodes hg h, Graph.touchesNode_iff hg h,
      Graph.mem_changes_edges hg h]
  isEmpty_iff := by
    rw [Graph.isEmpty_changes_iff hg h]
    constructor
    · rintro ⟨e, he, rfl⟩
      exact ⟨e, rfl, (Graph.addEdge_eq_self_iff hg h).mpr he⟩
    · rintro ⟨e, rfl, hsame⟩
      exact ⟨e, (Graph.addEdge_eq_self_iff hg h).mp hsame, rfl⟩

/-- The change set of any edit that succeeds, after any edits, is enough and no more. -/
theorem Graph.changes_cover_and_fit (g : Grammar) (edits : List Edit) (edit : Edit) (graph' : Graph)
    (c : Changes) (h : (Graph.run edits .empty).edit edit = .ok (graph', c)) :
    c.Covers g (Graph.run edits .empty) graph' ∧ c.Fits edit (Graph.run edits .empty) graph' := by
  have hg : (Graph.run edits .empty).Mirrored := Graph.mirrored_run edits Graph.mirrored_empty
  exact ⟨Changes.covers_of_edit g hg h, Changes.fits_of_edit hg h⟩

def beamRules : List Rule := [
  ⟨1, .attachment [⟨⟨"note"⟩, some (.exactly 1)⟩] [⟨⟨"stem"⟩, none⟩]⟩,
  ⟨2, .targetAggregate [⟨⟨"stem"⟩, some (.atMost 1)⟩]⟩]

/-- One of the notes has an edge to itself. -/
def beamEdits : List Edit := [
  .addNode 1 "note", .addNode 2 "note", .addNode 3 "stem", .addNode 4 "beam",
  .addEdge ⟨1, 1⟩, .addEdge ⟨1, 3⟩, .addEdge ⟨2, 3⟩, .addEdge ⟨2, 4⟩]

theorem Graph.changes_cover_and_fit_beam : ∃ out graph' c,
    compile beamRules (.ofNames ["stem", "note"]) true = .ok out ∧
    (Graph.run beamEdits .empty).edit (.removeNode 1) = .ok (graph', c) ∧
    c.nodes.toList = [1, 3] ∧ c.edges.toList = [⟨1, 1⟩, ⟨1, 3⟩] ∧
    c.Covers out.grammar (Graph.run beamEdits .empty) graph' ∧
      c.Fits (.removeNode 1) (Graph.run beamEdits .empty) graph' := by
  refine ⟨_, _, _, rfl, rfl, by decide +kernel, by decide +kernel, ?_⟩
  exact Graph.changes_cover_and_fit _ beamEdits (.removeNode 1) _ _ rfl

end AttachmentGrammar
