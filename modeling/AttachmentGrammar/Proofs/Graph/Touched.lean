import AttachmentGrammar.Proofs.Graph.Effect
/-!
What the change set of an edit covers. Main statement: around a node that the change set leaves out
the edit changes nothing, neither its class, nor its rows, nor the classes of its neighbours.
-/
namespace AttachmentGrammar

namespace Changes

variable {c d : Changes} {x : NodeId} {e : Edge}

theorem not_mem_nodes_empty : x ∉ empty.nodes := SortedSet.not_mem_empty x

theorem not_mem_edges_empty : e ∉ empty.edges := SortedSet.not_mem_empty e

theorem mem_nodes_touchEdges {edges : List Edge} :
    x ∈ (c.touchEdges edges).nodes ↔ x ∈ c.nodes ∨ ∃ e ∈ edges, x = e.source ∨ x = e.target := by
  induction edges generalizing c with
  | nil => simp [touchEdges]
  | cons e edges ih =>
    have hstep : c.touchEdges (e :: edges) = (c.touchEdge e).touchEdges edges := rfl
    simp only [hstep, ih, touchEdge, SortedSet.mem_insert, List.mem_cons, exists_eq_or_imp]
    grind

theorem mem_edges_touchEdges {edges : List Edge} :
    e ∈ (c.touchEdges edges).edges ↔ e ∈ c.edges ∨ e ∈ edges := by
  induction edges generalizing c with
  | nil => simp [touchEdges]
  | cons e' edges ih =>
    have hstep : c.touchEdges (e' :: edges) = (c.touchEdge e').touchEdges edges := rfl
    simp only [hstep, ih, touchEdge, SortedSet.mem_insert, List.mem_cons]
    grind

end Changes

/-- Whether an edge is in the change set of the edit. -/
def Edit.TouchesEdge (g : Graph) : Edit → Edge → Prop
  | .addNode _ _, _ => False
  | .setClass id _, x | .removeNode id, x => x ∈ g.edges ∧ (x.source = id ∨ x.target = id)
  | .addEdge e, x => e ∉ g.edges ∧ x = e
  | .removeEdge e, x => x = e

/-- Whether a node is in the change set of the edit. -/
def Edit.TouchesNode (g : Graph) : Edit → NodeId → Prop
  | .addNode id _, x => x = id
  | .setClass id name, x =>
    x = id ∨ ∃ e, (setClass id name).TouchesEdge g e ∧ (x = e.source ∨ x = e.target)
  | .removeNode id, x =>
    x = id ∨ ∃ e, (removeNode id).TouchesEdge g e ∧ (x = e.source ∨ x = e.target)
  | .addEdge e, x => e ∉ g.edges ∧ (x = e.source ∨ x = e.target)
  | .removeEdge e, x => x = e.source ∨ x = e.target

namespace Graph

variable {g g' : Graph} {c : Changes} {edit : Edit}

theorem mem_nodes_changesAround (hg : g.Mirrored) {id x : NodeId} :
    x ∈ (g.changesAround id).nodes ↔ x = id ∨ ∃ e, (e ∈ g.edges ∧ (e.source = id ∨ e.target = id)) ∧
      (x = e.source ∨ x = e.target) := by
  rw [changesAround, Changes.mem_nodes_touchEdges]
  simp only [hg.mem_incident, Changes.touchNode, SortedSet.mem_insert, Changes.not_mem_nodes_empty,
    or_false]

theorem mem_edges_changesAround (hg : g.Mirrored) {id : NodeId} {e : Edge} :
    e ∈ (g.changesAround id).edges ↔ e ∈ g.edges ∧ (e.source = id ∨ e.target = id) := by
  rw [changesAround, Changes.mem_edges_touchEdges, hg.mem_incident]
  simp only [Changes.touchNode, Changes.not_mem_edges_empty, false_or]

theorem mem_changes_nodes (hg : g.Mirrored) (h : g.edit edit = .ok (g', c)) (x : NodeId) :
    x ∈ c.nodes ↔ edit.TouchesNode g x := by
  cases edit with
  | addNode id name =>
    obtain ⟨-, rfl, -⟩ := addNode_eq_ok.mp h
    simp [Changes.touchNode, Changes.not_mem_nodes_empty, Edit.TouchesNode]
  | setClass id name =>
    obtain ⟨-, rfl, -⟩ := setClass_eq_ok.mp h
    exact mem_nodes_changesAround hg
  | removeNode id =>
    obtain ⟨-, rfl, -⟩ := removeNode_eq_ok.mp h
    exact mem_nodes_changesAround hg
  | addEdge e =>
    obtain ⟨-, -, ⟨he, rfl, -⟩ | ⟨he, rfl, -⟩⟩ := addEdge_eq_ok.mp h
    · simp [Changes.not_mem_nodes_empty, Edit.TouchesNode, containsEdge_iff.mp he]
    · have hnew : e ∉ g.edges := fun hm => by simp [containsEdge_iff.mpr hm] at he
      simp [Changes.touchEdge, Changes.not_mem_nodes_empty, Edit.TouchesNode, hnew, or_comm]
  | removeEdge e =>
    obtain ⟨-, rfl, -⟩ := removeEdge_eq_ok.mp h
    simp [Changes.touchEdge, Changes.not_mem_nodes_empty, Edit.TouchesNode, or_comm]

theorem mem_changes_edges (hg : g.Mirrored) (h : g.edit edit = .ok (g', c)) (x : Edge) :
    x ∈ c.edges ↔ edit.TouchesEdge g x := by
  cases edit with
  | addNode id name =>
    obtain ⟨-, rfl, -⟩ := addNode_eq_ok.mp h
    simp [Changes.touchNode, Changes.not_mem_edges_empty, Edit.TouchesEdge]
  | setClass id name =>
    obtain ⟨-, rfl, -⟩ := setClass_eq_ok.mp h
    exact mem_edges_changesAround hg
  | removeNode id =>
    obtain ⟨-, rfl, -⟩ := removeNode_eq_ok.mp h
    exact mem_edges_changesAround hg
  | addEdge e =>
    obtain ⟨-, -, ⟨he, rfl, -⟩ | ⟨he, rfl, -⟩⟩ := addEdge_eq_ok.mp h
    · simp [Changes.not_mem_edges_empty, Edit.TouchesEdge, containsEdge_iff.mp he]
    · have hnew : e ∉ g.edges := fun hm => by simp [containsEdge_iff.mpr hm] at he
      simp [Changes.touchEdge, Changes.not_mem_edges_empty, Edit.TouchesEdge, hnew]
  | removeEdge e =>
    obtain ⟨-, rfl, -⟩ := removeEdge_eq_ok.mp h
    simp [Changes.touchEdge, Changes.not_mem_edges_empty, Edit.TouchesEdge]

theorem touchesNode_of_touchesEdge {e : Edge} (h : edit.TouchesEdge g e) :
    edit.TouchesNode g e.source ∧ edit.TouchesNode g e.target := by
  cases edit with
  | addNode id name => exact h.elim
  | setClass id name => exact ⟨Or.inr ⟨e, h, Or.inl rfl⟩, Or.inr ⟨e, h, Or.inr rfl⟩⟩
  | removeNode id => exact ⟨Or.inr ⟨e, h, Or.inl rfl⟩, Or.inr ⟨e, h, Or.inr rfl⟩⟩
  | addEdge e' =>
    obtain ⟨hnew, rfl⟩ := h
    exact ⟨⟨hnew, Or.inl rfl⟩, hnew, Or.inr rfl⟩
  | removeEdge e' =>
    obtain rfl : e = e' := h
    exact ⟨Or.inl rfl, Or.inr rfl⟩

theorem class?_eq_of_untouched (h : g.edit edit = .ok (g', c)) {x : NodeId}
    (hx : ¬edit.TouchesNode g x) : g'.class? x = g.class? x := by
  rw [class?_of_edit h]
  cases edit with
  | addNode id name => exact if_neg hx
  | setClass id name => exact if_neg fun hid => hx (Or.inl hid)
  | removeNode id => exact if_neg fun hid => hx (Or.inl hid)
  | addEdge e => rfl
  | removeEdge e => rfl

theorem mem_edges_iff_of_untouched (hg : g.Mirrored) (h : g.edit edit = .ok (g', c)) {e : Edge}
    (he : ¬edit.TouchesEdge g e) : e ∈ g'.edges ↔ e ∈ g.edges := by
  rw [mem_edges_of_edit hg h]
  cases edit with
  | addNode id name => exact Iff.rfl
  | setClass id name => exact Iff.rfl
  | removeNode id =>
    refine and_iff_left_of_imp fun hm => ⟨fun hs => ?_, fun ht => ?_⟩
    · exact he ⟨hm, Or.inl hs⟩
    · exact he ⟨hm, Or.inr ht⟩
  | addEdge e' =>
    by_cases hold : e' ∈ g.edges
    · exact or_iff_right_of_imp fun heq => heq ▸ hold
    · exact or_iff_right fun heq => he ⟨hold, heq⟩
  | removeEdge e' => exact and_iff_right he

/-- The ends of an edge keep their classes unless the change set covers the edge. -/
theorem class?_ends_of_untouched (hg : g.Mirrored) (h : g.edit edit = .ok (g', c)) {e : Edge}
    (hm : e ∈ g.edges) (he : ¬edit.TouchesEdge g e) :
    g'.class? e.source = g.class? e.source ∧ g'.class? e.target = g.class? e.target := by
  rw [class?_of_edit h, class?_of_edit h]
  cases edit with
  | addNode id name =>
    have hid : g.containsNode id = false := (addNode_eq_ok.mp h).1
    obtain ⟨hs, ht⟩ := hg.ends_ne_of_absent hid hm
    exact ⟨if_neg hs, if_neg ht⟩
  | setClass id name =>
    exact ⟨if_neg fun hs => he ⟨hm, Or.inl hs⟩, if_neg fun ht => he ⟨hm, Or.inr ht⟩⟩
  | removeNode id =>
    exact ⟨if_neg fun hs => he ⟨hm, Or.inl hs⟩, if_neg fun ht => he ⟨hm, Or.inr ht⟩⟩
  | addEdge e' => exact ⟨rfl, rfl⟩
  | removeEdge e' => exact ⟨rfl, rfl⟩

/-- Two graphs look alike from a node. -/
structure AlikeAt (g g' : Graph) (id : NodeId) : Prop where
  class?_eq : g'.class? id = g.class? id
  targets_eq : g'.targets id = g.targets id
  sources_eq : g'.sources id = g.sources id
  target_class?_eq : ∀ t ∈ g.targets id, g'.class? t = g.class? t
  source_class?_eq : ∀ s ∈ g.sources id, g'.class? s = g.class? s

theorem alikeAt_of_untouched (hg : g.Mirrored) (h : g.edit edit = .ok (g', c)) {x : NodeId}
    (hx : ¬edit.TouchesNode g x) : AlikeAt g g' x := by
  have hg' := mirrored_of_edit hg h
  have hout (t : NodeId) : ¬edit.TouchesEdge g ⟨x, t⟩ :=
    fun ht => hx (touchesNode_of_touchesEdge ht).1
  have hin (s : NodeId) : ¬edit.TouchesEdge g ⟨s, x⟩ :=
    fun hs => hx (touchesNode_of_touchesEdge hs).2
  constructor
  · exact class?_eq_of_untouched h hx
  · refine congrArg SortedSet.toList (SortedSet.ext fun t => ?_)
    exact mem_targets_iff.trans ((mem_edges_iff_of_untouched hg h (hout t)).trans
      mem_targets_iff.symm)
  · refine congrArg SortedSet.toList (SortedSet.ext fun s => ?_)
    exact hg'.mem_sources_iff_edges.trans ((mem_edges_iff_of_untouched hg h (hin s)).trans
      hg.mem_sources_iff_edges.symm)
  · intro t ht
    exact (class?_ends_of_untouched hg h (mem_targets_iff.mp ht) (hout t)).2
  · intro s hs
    exact (class?_ends_of_untouched hg h (hg.mem_sources_iff_edges.mp hs) (hin s)).1

end Graph

end AttachmentGrammar
