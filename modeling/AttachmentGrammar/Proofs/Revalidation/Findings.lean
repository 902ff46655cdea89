import Mathlib.Data.List.Basic
import AttachmentGrammar.Proofs.Validation.Checks
import AttachmentGrammar.Revalidation
/-!
Findings by place. Main statements: the part of a full report that belongs to one node or edge is
what is found there alone, a reset holds exactly that everywhere, and an update finds it anew at the
places of its change set and leaves all others as they were.
-/
namespace AttachmentGrammar

namespace Verdict

/-- What is held of a verdict: nothing where nothing is wrong. -/
def held? (w : Verdict) : Option Verdict := if w.isEmpty then none else some w

theorem held?_eq_some_iff {w w' : Verdict} : w.held? = some w' ↔ w'.isEmpty = false ∧ w = w' := by
  rw [held?]
  split <;> grind

theorem getD_held? (w : Verdict) : w.held?.getD .empty = w := by
  obtain ⟨unknown, cardinalities⟩ := w
  cases unknown <;> cases cardinalities <;> rfl

end Verdict

variable {g : Grammar} {graph : Graph}

namespace Findings

/-- What is wrong with an edge, if it is there. -/
def findAtEdge? (g : Grammar) (graph : Graph) (e : Edge) : Option EdgeViolation :=
  if graph.containsEdge e then g.edgeViolation? graph e else none

theorem nodeViolations_eq (hg : graph.Mirrored) (id : NodeId) :
    ((graph.class? id).map fun name => g.nodeViolations (g.edgePass graph) id name).getD [] =
      (findAtNode g graph id).cardinalities := by
  unfold findAtNode
  cases hname : graph.class? id with
  | none => rfl
  | some name =>
    rw [Option.map_some, Option.getD_some, Grammar.nodeViolations_eq hg hname]
    cases hclass : g.classId? name <;> simp [hclass]

theorem unknownClass?_eq (id : NodeId) :
    ((graph.class? id).map fun name => (g.unknownClass? id name).toList).getD [] =
      (findAtNode g graph id).unknownClass.toList := by
  unfold findAtNode
  cases hname : graph.class? id with
  | none => rfl
  | some name => cases hclass : g.classId? name <;> simp [Grammar.unknownClass?, hclass]

/-! A full report, cut at one place. -/

theorem cardinalities_validate : (g.validate graph).cardinalities =
    graph.classes.toList.flatMap fun e => g.nodeViolations (g.edgePass graph) e.1 e.2 := rfl

theorem unknownClasses_validate : (g.validate graph).unknownClasses =
    graph.classes.toList.flatMap fun e => (g.unknownClass? e.1 e.2).toList :=
  List.filterMap_eq_flatMap_toList _ _

theorem filter_cardinalities_validate (id : NodeId) :
    (g.validate graph).cardinalities.filter (fun v => v.node = id) =
      ((graph.class? id).map fun name => g.nodeViolations (g.edgePass graph) id name).getD [] := by
  rw [cardinalities_validate]
  exact SortedMap.filter_flatMap_toList graph.classes _ CardinalityViolation.node
    (fun _ _ _ hv => Grammar.node_of_mem_nodeViolations hv) id

theorem filter_cardinalities (hg : graph.Mirrored) (id : NodeId) :
    (g.validate graph).cardinalities.filter (fun v => v.node = id) =
      (findAtNode g graph id).cardinalities := by
  rw [filter_cardinalities_validate, nodeViolations_eq hg]

theorem filter_unknownClasses (id : NodeId) :
    (g.validate graph).unknownClasses.filter (fun v => v.node = id) =
      (findAtNode g graph id).unknownClass.toList := by
  rw [← unknownClass?_eq, unknownClasses_validate]
  exact SortedMap.filter_flatMap_toList graph.classes _ UnknownClass.node
    (fun _ _ _ hv => congrArg UnknownClass.node
      (Grammar.unknownClass?_eq_some_iff.mp (Option.mem_toList.mp hv)).1) id

/-- The violations of a full report by the edges that they are found at. -/
def edgeFindings (g : Grammar) (graph : Graph) : SortedMap Edge EdgeViolation where
  toList := graph.edges.filterMap fun e => (g.edgeViolation? graph e).map fun v => (e, v)
  increasing := by
    rw [Increasing, List.pairwise_filterMap]
    refine graph.edges_increasing.imp fun {e e'} hlt => ?_
    intro entry hentry entry' hentry'
    obtain ⟨v, -, rfl⟩ := Option.map_eq_some_iff.mp hentry
    obtain ⟨v', -, rfl⟩ := Option.map_eq_some_iff.mp hentry'
    exact hlt

theorem get?_edgeFindings (e : Edge) :
    (edgeFindings g graph).get? e = findAtEdge? g graph e := by
  ext v
  rw [← SortedMap.mem_toList_iff, findAtEdge?]
  have hmem : (e, v) ∈ (edgeFindings g graph).toList ↔
      e ∈ graph.edges ∧ g.edgeViolation? graph e = some v := by
    simp [edgeFindings, List.mem_filterMap, Option.map_eq_some_iff]
  rw [hmem, ← Graph.containsEdge_iff]
  split <;> simp_all

theorem edges_validate : (g.validate graph).edges = (edgeFindings g graph).values := by
  simp [Grammar.validate, SortedMap.values, edgeFindings, List.map_filterMap, Function.comp_def]

theorem map_edges_validate :
    (g.validate graph).edges.map (fun v => (v.edge, v)) = (edgeFindings g graph).toList := by
  rw [edges_validate, SortedMap.values, List.map_map]
  refine List.map_congr_left (fun entry hentry => ?_) |>.trans (List.map_id _)
  obtain ⟨e, -, he⟩ := List.mem_filterMap.mp hentry
  obtain ⟨v, hv, rfl⟩ := Option.map_eq_some_iff.mp he
  simp [(Grammar.edgeViolation?_eq_some_iff.mp hv).1]

theorem filter_edges (e : Edge) :
    (g.validate graph).edges.filter (fun v => v.edge = e) = (findAtEdge? g graph e).toList := by
  have hcut := SortedMap.filter_key (edgeFindings g graph) e
  rw [get?_edgeFindings, ← map_edges_validate, List.filter_map] at hcut
  have hsnd := congrArg (List.map Prod.snd) hcut
  cases h : findAtEdge? g graph e <;> simpa [h, Function.comp_def] using hsnd

/-! What a reset holds. -/

theorem get?_edges_ofReport (r : Report) (e : Edge) :
    (ofReport r).edges.get? e = (r.edges.filter fun v => v.edge = e).getLast? := by
  rw [ofReport, SortedMap.get?_ofList, List.filter_map]
  simp [Function.comp_def]

theorem atNode_insert (nodes : SortedMap NodeId Verdict) (id id' : NodeId) (f : Verdict) :
    atNode (nodes.insert id f) id' = if id' = id then f else atNode nodes id' := by
  rw [atNode, SortedMap.get?_insert_eq]
  split <;> rfl

theorem atNode_foldl_addCardinality (vs : List CardinalityViolation)
    (nodes : SortedMap NodeId Verdict) (id : NodeId) : atNode (vs.foldl addCardinality nodes) id =
      { atNode nodes id with
        cardinalities := (atNode nodes id).cardinalities ++ vs.filter fun v => v.node = id } := by
  induction vs generalizing nodes with
  | nil => simp
  | cons v vs ih =>
    rw [List.foldl_cons, ih, addCardinality, atNode_insert]
    by_cases hid : id = v.node
    · subst hid
      simp
    · simp [hid, Ne.symm hid]

theorem atNode_foldl_addUnknownClass (us : List UnknownClass) (nodes : SortedMap NodeId Verdict)
    (id : NodeId) : atNode (us.foldl addUnknownClass nodes) id =
      { atNode nodes id with
        unknownClass := (us.filter fun v => v.node = id).getLast?.or
          (atNode nodes id).unknownClass } := by
  induction us generalizing nodes with
  | nil => simp
  | cons v us ih =>
    rw [List.foldl_cons, ih, addUnknownClass, atNode_insert]
    by_cases hid : id = v.node
    · subst hid
      cases h : (us.filter fun u => u.node = v.node).getLast? <;> simp [List.getLast?_cons, h]
    · simp [hid, Ne.symm hid]

theorem atNode_ofReport (r : Report) (id : NodeId) : atNode (ofReport r).nodes id =
    ⟨(r.unknownClasses.filter fun v => v.node = id).getLast?,
      r.cardinalities.filter fun v => v.node = id⟩ := by
  rw [ofReport, atNode_foldl_addUnknownClass, atNode_foldl_addCardinality]
  simp [atNode, Verdict.empty]

theorem atNode_reset (hg : graph.Mirrored) (id : NodeId) :
    atNode (reset g graph).nodes id = findAtNode g graph id := by
  rw [reset, atNode_ofReport, filter_cardinalities hg, filter_unknownClasses]
  cases findAtNode g graph id with
  | mk unknown cardinalities => cases unknown <;> rfl

theorem get?_edges_reset (e : Edge) :
    (reset g graph).edges.get? e = findAtEdge? g graph e := by
  rw [reset, get?_edges_ofReport, filter_edges]
  cases findAtEdge? g graph e <;> rfl

/-! What an update finds anew. -/

theorem get?_refreshEdge (edges : SortedMap Edge EdgeViolation) (e e' : Edge) :
    (refreshEdge g graph edges e).get? e' =
      if e' = e then findAtEdge? g graph e else edges.get? e' := by
  unfold refreshEdge findAtEdge?
  split
  · split
    · rename_i h
      rw [SortedMap.get?_erase_eq, h]
    · rename_i v h
      rw [SortedMap.get?_insert_eq, SortedMap.get?_erase_eq, h]
      split <;> rfl
  · rw [SortedMap.get?_erase_eq]

theorem get?_refreshNode (nodes : SortedMap NodeId Verdict) (id id' : NodeId) :
    (refreshNode g graph nodes id).get? id' =
      if id' = id then (findAtNode g graph id).held? else nodes.get? id' := by
  by_cases hempty : (findAtNode g graph id).isEmpty = true
  · have hstep : refreshNode g graph nodes id = nodes.erase id := if_pos hempty
    rw [hstep, SortedMap.get?_erase_eq, Verdict.held?, if_pos hempty]
  · have hstep : refreshNode g graph nodes id =
        (nodes.erase id).insert id (findAtNode g graph id) := if_neg hempty
    rw [hstep, SortedMap.get?_insert_eq, SortedMap.get?_erase_eq, Verdict.held?, if_neg hempty]
    split <;> rfl

theorem get?_edges_apply (c : Changes) (f : Findings) (e : Edge) :
    (apply g graph c f).edges.get? e =
      if e ∈ c.edges then findAtEdge? g graph e else f.edges.get? e :=
  SortedMap.get?_foldl_of_step get?_refreshEdge _ _ _

theorem get?_nodes_apply (c : Changes) (f : Findings) (id : NodeId) :
    (apply g graph c f).nodes.get? id =
      if id ∈ c.nodes then (findAtNode g graph id).held? else f.nodes.get? id :=
  SortedMap.get?_foldl_of_step get?_refreshNode _ _ _

theorem atNode_apply (c : Changes) (f : Findings) (id : NodeId) :
    atNode (apply g graph c f).nodes id =
      if id ∈ c.nodes then findAtNode g graph id else atNode f.nodes id := by
  rw [atNode, get?_nodes_apply]
  split
  · exact Verdict.getD_held? _
  · rfl

/-! The report of findings that are right everywhere. -/

theorem cardinalities_report (f : Findings) :
    f.report.cardinalities = f.nodes.toList.flatMap fun e => e.2.cardinalities :=
  List.flatMap_map _ _ _

theorem unknownClasses_report (f : Findings) :
    f.report.unknownClasses = f.nodes.toList.flatMap fun e => e.2.unknownClass.toList :=
  List.filterMap_map.trans (List.filterMap_eq_flatMap_toList _ _)

/-- Findings that hold at every place what is found there give the full report. -/
theorem report_eq_validate (hg : graph.Mirrored) {f : Findings}
    (hnodes : ∀ id, atNode f.nodes id = findAtNode g graph id)
    (hedges : ∀ e, f.edges.get? e = findAtEdge? g graph e) : f.report = g.validate graph := by
  have hviolations : f.report.edges = (g.validate graph).edges := by
    have heq : f.edges = edgeFindings g graph :=
      SortedMap.ext_get? fun e => (hedges e).trans (get?_edgeFindings e).symm
    rw [edges_validate, ← heq]
    rfl
  have hcardinalities : f.report.cardinalities = (g.validate graph).cardinalities := by
    rw [cardinalities_validate, cardinalities_report]
    refine SortedMap.flatMap_toList_congr fun id => ?_
    refine Eq.trans ?_ (nodeViolations_eq hg id).symm
    rw [← hnodes, atNode]
    cases f.nodes.get? id <;> rfl
  have hunknown : f.report.unknownClasses = (g.validate graph).unknownClasses := by
    rw [unknownClasses_validate, unknownClasses_report]
    refine SortedMap.flatMap_toList_congr fun id => ?_
    refine Eq.trans ?_ (unknownClass?_eq id).symm
    rw [← hnodes, atNode]
    cases f.nodes.get? id <;> rfl
  cases hr : g.validate graph
  simp_all [report]

end Findings

end AttachmentGrammar
