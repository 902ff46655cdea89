import AttachmentGrammar.Proofs.Revalidation.Findings
/-!
Findings in canonical form. Main statements: whatever graphs and change sets findings were made from,
right or wrong, each violation is held at its own place and no verdict is held that finds nothing; and
findings of that form are the same once their reports are.
-/
namespace AttachmentGrammar

namespace Findings

/-- What resets and updates can lead to, each with any graph and any change set. -/
inductive Reachable (g : Grammar) : Findings → Prop
  | reset (graph : Graph) : Reachable g (reset g graph)
  | apply (graph : Graph) (c : Changes) {f : Findings} :
      Reachable g f → Reachable g (apply g graph c f)

structure Canonical (f : Findings) : Prop where
  edge_eq : ∀ {e v}, f.edges.get? e = some v → v.edge = e
  isEmpty_eq : ∀ {id w}, f.nodes.get? id = some w → w.isEmpty = false
  unknownClass_eq : ∀ {id w u}, f.nodes.get? id = some w → w.unknownClass = some u → u.node = id
  cardinality_eq : ∀ {id w v}, f.nodes.get? id = some w → v ∈ w.cardinalities → v.node = id

variable {g : Grammar} {graph : Graph} {f f' : Findings} {nodes : SortedMap NodeId Verdict}
  {id : NodeId}

theorem ext_get? (hedges : ∀ e, f.edges.get? e = f'.edges.get? e)
    (hnodes : ∀ id, f.nodes.get? id = f'.nodes.get? id) : f = f' := by
  cases f
  cases f'
  exact congrArg₂ mk (SortedMap.ext_get? hedges) (SortedMap.ext_get? hnodes)

theorem atNode_of_get? {w : Verdict} (h : nodes.get? id = some w) : atNode nodes id = w := by
  rw [atNode, h, Option.getD_some]

/-! What is found at one place is about that place. -/

theorem edge_of_findAtEdge? {e : Edge} {v : EdgeViolation} (h : findAtEdge? g graph e = some v) :
    v.edge = e := by
  rw [findAtEdge?] at h
  split at h
  · exact (Grammar.edgeViolation?_eq_some_iff.mp h).1
  · cases h

theorem node_of_findAtNode_unknownClass {u : UnknownClass}
    (h : (findAtNode g graph id).unknownClass = some u) : u.node = id := by
  unfold findAtNode at h
  split at h
  · cases h
  · split at h
    · rw [← Option.some.inj h]
    · cases h

theorem node_of_mem_findAtNode_cardinalities {v : CardinalityViolation}
    (h : v ∈ (findAtNode g graph id).cardinalities) : v.node = id := by
  unfold findAtNode at h
  split at h
  · cases h
  · split at h
    · cases h
    · obtain ⟨_, -, hnode, -⟩ := Grammar.mem_violationsOf.mp h
      exact hnode

/-! A report, held by place. -/

/-- No verdict is held that finds nothing. -/
def Sparse (nodes : SortedMap NodeId Verdict) : Prop :=
  ∀ id w, nodes.get? id = some w → w.isEmpty = false

theorem sparse_empty : Sparse .empty := fun _ _ h => by cases h

theorem Sparse.insert (h : Sparse nodes) {w : Verdict} (hw : w.isEmpty = false) (id : NodeId) :
    Sparse (nodes.insert id w) := by
  intro id' w' h'
  rw [SortedMap.get?_insert_eq] at h'
  split at h'
  · rwa [← Option.some.inj h']
  · exact h id' w' h'

theorem Sparse.foldl_addCardinality (h : Sparse nodes) (vs : List CardinalityViolation) :
    Sparse (vs.foldl addCardinality nodes) := by
  induction vs generalizing nodes with
  | nil => exact h
  | cons v vs ih => exact ih (h.insert (by simp [Verdict.isEmpty]) v.node)

theorem Sparse.foldl_addUnknownClass (h : Sparse nodes) (us : List UnknownClass) :
    Sparse (us.foldl addUnknownClass nodes) := by
  induction us generalizing nodes with
  | nil => exact h
  | cons u us ih => exact ih (h.insert rfl u.node)

theorem canonical_ofReport (r : Report) : (ofReport r).Canonical := by
  have hsparse : Sparse (ofReport r).nodes :=
    (sparse_empty.foldl_addCardinality r.cardinalities).foldl_addUnknownClass r.unknownClasses
  constructor
  case edge_eq =>
    intro e v h
    rw [get?_edges_ofReport] at h
    exact of_decide_eq_true (List.mem_filter.mp (List.mem_of_getLast? h)).2
  case isEmpty_eq => exact fun {id w} h => hsparse id w h
  case unknownClass_eq =>
    intro id w u h hu
    rw [← atNode_of_get? h, atNode_ofReport] at hu
    exact of_decide_eq_true (List.mem_filter.mp (List.mem_of_getLast? hu)).2
  case cardinality_eq =>
    intro id w v h hv
    rw [← atNode_of_get? h, atNode_ofReport] at hv
    exact of_decide_eq_true (List.mem_filter.mp hv).2

theorem Canonical.apply (hf : f.Canonical) (graph : Graph) (c : Changes) :
    (apply g graph c f).Canonical := by
  -- a verdict is held because this update found it, or from before
  have hnodes {id : NodeId} {w : Verdict} (h : (f.apply g graph c).nodes.get? id = some w) :
      w.isEmpty = false ∧ w = findAtNode g graph id ∨ f.nodes.get? id = some w := by
    rw [get?_nodes_apply] at h
    split at h
    · obtain ⟨hw, rfl⟩ := Verdict.held?_eq_some_iff.mp h
      exact .inl ⟨hw, rfl⟩
    · exact .inr h
  constructor
  case edge_eq =>
    intro e v h
    rw [get?_edges_apply] at h
    split at h
    · exact edge_of_findAtEdge? h
    · exact hf.edge_eq h
  case isEmpty_eq =>
    intro id w h
    obtain ⟨hw, -⟩ | hold := hnodes h
    · exact hw
    · exact hf.isEmpty_eq hold
  case unknownClass_eq =>
    intro id w u h hu
    obtain ⟨-, rfl⟩ | hold := hnodes h
    · exact node_of_findAtNode_unknownClass hu
    · exact hf.unknownClass_eq hold hu
  case cardinality_eq =>
    intro id w v h hv
    obtain ⟨-, rfl⟩ | hold := hnodes h
    · exact node_of_mem_findAtNode_cardinalities hv
    · exact hf.cardinality_eq hold hv

theorem Reachable.canonical (h : Reachable g f) : f.Canonical := by
  induction h with
  | reset graph => exact canonical_ofReport _
  | apply graph c _ ih => exact ih.apply graph c

/-! A report of canonical findings, cut at one place. -/

namespace Canonical

theorem filter_edges (hf : f.Canonical) (e : Edge) :
    f.report.edges.filter (fun v => v.edge = e) = (f.edges.get? e).toList := by
  have hflat : f.report.edges = f.edges.toList.flatMap fun entry => [entry.2] :=
    List.map_eq_flatMap
  rw [hflat, SortedMap.filter_flatMap_toList f.edges _ EdgeViolation.edge]
  · cases f.edges.get? e <;> rfl
  · intro entry hentry v hv
    rw [List.mem_singleton.mp hv]
    exact hf.edge_eq (SortedMap.mem_toList_iff.mp hentry)

theorem filter_cardinalities (hf : f.Canonical) (id : NodeId) :
    f.report.cardinalities.filter (fun v => v.node = id) = (atNode f.nodes id).cardinalities := by
  rw [cardinalities_report, SortedMap.filter_flatMap_toList f.nodes _ CardinalityViolation.node]
  · rw [atNode]
    cases f.nodes.get? id <;> rfl
  · intro entry hentry v hv
    exact hf.cardinality_eq (SortedMap.mem_toList_iff.mp hentry) hv

theorem filter_unknownClasses (hf : f.Canonical) (id : NodeId) :
    f.report.unknownClasses.filter (fun u => u.node = id) =
      (atNode f.nodes id).unknownClass.toList := by
  rw [unknownClasses_report, SortedMap.filter_flatMap_toList f.nodes _ UnknownClass.node]
  · rw [atNode]
    cases f.nodes.get? id <;> rfl
  · intro entry hentry u hu
    exact hf.unknownClass_eq (SortedMap.mem_toList_iff.mp hentry) (Option.mem_toList.mp hu)

/-! What is held is what the report says. -/

theorem get?_edges (hf : f.Canonical) (e : Edge) :
    f.edges.get? e = (f.report.edges.filter fun v => v.edge = e).head? := by
  rw [hf.filter_edges, Option.head?_toList]

theorem atNode_nodes (hf : f.Canonical) (id : NodeId) : atNode f.nodes id =
    ⟨(f.report.unknownClasses.filter fun u => u.node = id).head?,
      f.report.cardinalities.filter fun v => v.node = id⟩ := by
  rw [hf.filter_unknownClasses, hf.filter_cardinalities, Option.head?_toList]

theorem get?_nodes (hf : f.Canonical) (id : NodeId) :
    f.nodes.get? id = (atNode f.nodes id).held? := by
  rw [atNode]
  cases h : f.nodes.get? id with
  | none => rfl
  | some w => exact (Verdict.held?_eq_some_iff.mpr ⟨hf.isEmpty_eq h, rfl⟩).symm

theorem ext_report (hf : f.Canonical) (hf' : f'.Canonical) (h : f.report = f'.report) : f = f' :=
  ext_get? (fun e => by rw [hf.get?_edges, hf'.get?_edges, h]) fun id => by
    rw [hf.get?_nodes, hf'.get?_nodes, hf.atNode_nodes, hf'.atNode_nodes, h]

end Canonical

end Findings

end AttachmentGrammar
