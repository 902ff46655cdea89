import AttachmentGrammar.Grammar.Compile
import AttachmentGrammar.Graph.Edit
import AttachmentGrammar.Proofs.Revalidation.Canonical
/-!
Findings that need not be right for any graph. Main statement: whatever graphs and change sets they
were made from, what they hold stands at its own place, their report is in strict order, and it is
valid exactly if they hold nothing.
-/
namespace AttachmentGrammar

/-- A report in order without repetition, right or wrong. -/
structure Report.Ordered (r : Report) : Prop where
  edges : r.edges.Pairwise fun v w => compare v.edge.source w.edge.source = .lt ∨
    v.edge.source = w.edge.source ∧ compare v.edge.target w.edge.target = .lt
  unknownClasses : r.unknownClasses.Pairwise fun u w => compare u.node w.node = .lt
  cardinalities : r.cardinalities.Pairwise fun v w => compare v.node w.node = .lt ∨
    v.node = w.node ∧ compare v.role w.role = .lt

namespace Findings

variable {g : Grammar} {graph : Graph} {f : Findings}

/-- The violations of every node are held in the order of their roles. -/
def RolesOrdered (f : Findings) : Prop :=
  ∀ id, (atNode f.nodes id).cardinalities.Pairwise fun v w => compare v.role w.role = .lt

theorem increasing_findAtNode (g : Grammar) (graph : Graph) (id : NodeId) :
    (findAtNode g graph id).cardinalities.Pairwise fun v w => compare v.role w.role = .lt := by
  unfold findAtNode
  split
  · exact .nil
  · split
    · exact .nil
    · exact Grammar.increasing_violationsOf_countsAt id _

/-- A reset takes the violations of a node from a full report, which counts by a pass over the
edges, and an update from the rows of the node; both go through its roles in order. -/
theorem rolesOrdered_reset (g : Grammar) (graph : Graph) : (reset g graph).RolesOrdered := by
  intro id
  rw [reset, atNode_ofReport, filter_cardinalities_validate]
  cases hclass : graph.class? id with
  | none => exact .nil
  | some name => exact Grammar.increasing_nodeViolations hclass

theorem RolesOrdered.apply (hf : f.RolesOrdered) (graph : Graph) (c : Changes) :
    (apply g graph c f).RolesOrdered := by
  intro id
  rw [atNode_apply]
  split
  · exact increasing_findAtNode g graph id
  · exact hf id

theorem Reachable.rolesOrdered (h : Reachable g f) : f.RolesOrdered := by
  induction h with
  | reset graph => exact rolesOrdered_reset g graph
  | apply graph c _ ih => exact ih.apply graph c

namespace Canonical

theorem ordered_report (hf : f.Canonical) (hroles : f.RolesOrdered) : f.report.Ordered := by
  constructor
  case edges =>
    change (f.edges.toList.map (·.2)).Pairwise _
    rw [List.pairwise_map]
    refine f.edges.increasing.imp_of_mem fun {d e} hd he hlt => Edge.compare_eq_lt.mp ?_
    rw [hf.edge_eq (SortedMap.mem_toList_iff.mp hd), hf.edge_eq (SortedMap.mem_toList_iff.mp he)]
    exact hlt
  case unknownClasses =>
    change ((f.nodes.toList.map (·.2)).filterMap Verdict.unknownClass).Pairwise _
    rw [List.pairwise_filterMap, List.pairwise_map]
    refine f.nodes.increasing.imp_of_mem fun {d e} hd he hlt u hu w hw => ?_
    rw [hf.unknownClass_eq (SortedMap.mem_toList_iff.mp hd) hu,
      hf.unknownClass_eq (SortedMap.mem_toList_iff.mp he) hw]
    exact hlt
  case cardinalities =>
    rw [cardinalities_report]
    refine SortedMap.pairwise_flatMap_toList f.nodes _ CardinalityViolation.node ?_ ?_
    · exact fun e he v hv => hf.cardinality_eq (SortedMap.mem_toList_iff.mp he) hv
    · intro e he
      rw [← atNode_of_get? (SortedMap.mem_toList_iff.mp he)]
      exact hroles e.1

/-- A verdict that is held shows in the report, so the report is empty only if nothing is held. -/
theorem isValid_iff_report (hf : f.Canonical) : f.isValid = true ↔ f.report.isValid = true := by
  rw [isValid, Bool.and_eq_true, List.isEmpty_iff, List.isEmpty_iff, Report.isValid_iff]
  have hedges : f.report.edges = [] ↔ f.edges.toList = [] := List.map_eq_nil_iff
  rw [hedges]
  refine and_congr_right fun _ => ?_
  rw [cardinalities_report, unknownClasses_report, List.flatMap_eq_nil_iff, List.flatMap_eq_nil_iff]
  constructor
  · intro hnil
    rw [hnil]
    exact ⟨nofun, nofun⟩
  · intro hnone
    obtain ⟨hcardinalities, hunknown⟩ := hnone
    refine List.eq_nil_iff_forall_not_mem.mpr fun e he => ?_
    have hheld : e.2.isEmpty = false := hf.isEmpty_eq (SortedMap.mem_toList_iff.mp he)
    rw [Verdict.isEmpty, hcardinalities e he, Option.toList_eq_nil_iff.mp (hunknown e he)] at hheld
    cases hheld

end Canonical

/-- Whatever the graphs and change sets, everything is held at its own place, no verdict is held
that finds nothing, the report is valid exactly if nothing is held, and it is in order. -/
theorem Reachable.canonical_report (h : Reachable g f) :
    f.Canonical ∧ (f.isValid = true ↔ f.report.isValid = true) ∧ f.report.Ordered :=
  ⟨h.canonical, h.canonical.isValid_iff_report, h.canonical.ordered_report h.rolesOrdered⟩

def quayRules : List Rule := [
  ⟨1, .attachment [⟨⟨"boat"⟩, some (.exactly 1)⟩] [⟨⟨"buoy"⟩, none⟩]⟩,
  ⟨2, .sourceAggregate [⟨⟨"boat"⟩, some (.atLeast 3)⟩]⟩,
  ⟨3, .targetAggregate [⟨⟨"boat"⟩, some (.atLeast 1)⟩]⟩]

def quayEdits : List Edit := [.addNode 1 "boat", .addNode 2 "buoy", .addNode 3 "raft",
  .addNode 4 "buoy", .addEdge ⟨4, 2⟩, .addEdge ⟨1, 2⟩, .addEdge ⟨1, 4⟩]

/-- Another graph, which has no edits in common with the first. -/
def harborEdits : List Edit := [.addNode 2 "boat", .addNode 5 "boat", .addEdge ⟨2, 5⟩]

/-- The findings of one graph, updated in the other at two of its places and at two that it never
had, are right for neither. -/
theorem canonical_report_quay : ∃ out,
    compile quayRules (.ofNames ["boat", "buoy"]) true = .ok out ∧
    let quay := Graph.run quayEdits .empty
    let harbor := Graph.run harborEdits .empty
    let f := apply out.grammar harbor ⟨.ofList [2, 9], .ofList [⟨2, 5⟩, ⟨8, 8⟩]⟩
      (reset out.grammar quay)
    Reachable out.grammar f ∧
    f.report ≠ out.grammar.validate quay ∧ f.report ≠ out.grammar.validate harbor ∧
    (f.report.cardinalities.map fun v => (v.node, v.role)) =
      [(1, .source), (1, .target), (1, .sourceOf "buoy"), (2, .source), (2, .target)] ∧
    f.Canonical ∧ (f.isValid = true ↔ f.report.isValid = true) ∧ f.report.Ordered := by
  refine ⟨_, rfl, ?_⟩
  intro quay harbor f
  have hf : Reachable _ f := .apply _ _ (.reset _)
  exact ⟨hf, by decide +kernel, by decide +kernel, by decide +kernel, hf.canonical_report⟩

end Findings

end AttachmentGrammar
