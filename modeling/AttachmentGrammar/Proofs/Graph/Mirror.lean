import AttachmentGrammar.Graph.Edit
import AttachmentGrammar.Proofs.SortedMap
/-!
Both rows of an edge. In a graph built by edits every node has an outgoing and an incoming row, and
an edge stands in the row of its source exactly if it stands in the row of its target; so every end
of an edge is a node.
-/
namespace AttachmentGrammar

theorem Edge.compare_eq_lt {a b : Edge} : compare a b = .lt ↔
    compare a.source b.source = .lt ∨ a.source = b.source ∧ compare a.target b.target = .lt := by
  have h : compare a b = (compare a.source b.source).then (compare a.target b.target) := rfl
  rw [h, Ordering.then_eq_lt, Std.LawfulEqCmp.compare_eq_iff_eq]

/-- A table of rows, as a graph holds its edges twice. -/
abbrev Rows := SortedMap NodeId (SortedSet NodeId)

namespace Rows

variable {rows : Rows} {k a x y : NodeId}

def Holds (rows : Rows) (x y : NodeId) : Prop := ∃ row, rows.get? x = some row ∧ y ∈ row

theorem holds_insert_empty :
    Holds (rows.insert k .empty) x y ↔ x ≠ k ∧ Holds rows x y := by
  by_cases h : x = k <;> simp [Holds, SortedMap.get?_insert_eq, h]

theorem holds_erase : Holds (rows.erase k) x y ↔ x ≠ k ∧ Holds rows x y := by
  by_cases h : x = k <;> simp [Holds, SortedMap.get?_erase_eq, h]

theorem holds_modify_erase :
    Holds (rows.modify k fun row => row.erase a) x y ↔ Holds rows x y ∧ ¬(x = k ∧ y = a) := by
  by_cases h : x = k
  · subst h
    cases hrow : rows.get? x <;> simp [Holds, SortedMap.get?_modify_eq, hrow, and_comm]
  · simp [Holds, SortedMap.get?_modify_eq, h]

theorem holds_modifyD_insert :
    Holds (rows.modifyD k .empty fun row => row.insert a) x y ↔ Holds rows x y ∨ x = k ∧ y = a := by
  by_cases h : x = k
  · subst h
    cases hrow : rows.get? x <;> simp [Holds, SortedMap.get?_modifyD_eq, hrow, or_comm]
  · simp [Holds, SortedMap.get?_modifyD_eq, h]

theorem isSome_modify (f : SortedSet NodeId → SortedSet NodeId) :
    ((rows.modify k f).get? x).isSome = (rows.get? x).isSome := by
  by_cases h : x = k <;> simp [SortedMap.get?_modify_eq, h]

/-- A row that is there is not made again. -/
theorem isSome_modifyD (hk : (rows.get? k).isSome = true) (fresh : SortedSet NodeId)
    (f : SortedSet NodeId → SortedSet NodeId) :
    ((rows.modifyD k fresh f).get? x).isSome = (rows.get? x).isSome := by
  by_cases h : x = k
  · subst h
    rw [SortedMap.get?_modifyD_eq, if_pos rfl, hk]
    rfl
  · rw [SortedMap.get?_modifyD_eq, if_neg h]

theorem modifyD_insert_of_holds (h : Holds rows k a) :
    rows.modifyD k .empty (fun row => row.insert a) = rows := by
  obtain ⟨row, hrow, ha⟩ := h
  apply SortedMap.ext_get?
  intro x
  rw [SortedMap.get?_modifyD_eq, hrow, Option.getD_some, SortedSet.insert_of_mem ha]
  split
  · rename_i hx
    rw [hx, hrow]
  · rfl

theorem modify_erase_of_not_holds (h : ¬Holds rows k a) :
    rows.modify k (fun row => row.erase a) = rows := by
  apply SortedMap.ext_get?
  intro x
  rw [SortedMap.get?_modify_eq]
  split
  · rename_i hx
    subst hx
    cases hrow : rows.get? x with
    | none => rfl
    | some row =>
      have ha : a ∉ row := fun ha => h ⟨row, hrow, ha⟩
      rw [Option.map_some, SortedSet.erase_of_not_mem ha]
  · rfl

end Rows

namespace Graph

structure Mirrored (g : Graph) : Prop where
  outgoing_isSome : ∀ id, (g.outgoing.get? id).isSome = g.containsNode id
  incoming_isSome : ∀ id, (g.incoming.get? id).isSome = g.containsNode id
  mem_sources_iff : ∀ s t, s ∈ g.sources t ↔ t ∈ g.targets s

theorem containsNode_iff {g : Graph} {id : NodeId} :
    g.containsNode id = true ↔ ∃ name, g.class? id = some name :=
  Option.isSome_iff_exists

theorem mem_targets {g : Graph} {s t : NodeId} : t ∈ g.targets s ↔ Rows.Holds g.outgoing s t := by
  cases h : g.outgoing.get? s <;> simp [targets, Rows.Holds, h]

theorem mem_sources {g : Graph} {s t : NodeId} : s ∈ g.sources t ↔ Rows.Holds g.incoming t s := by
  cases h : g.incoming.get? t <;> simp [sources, Rows.Holds, h]

theorem mem_edges {g : Graph} {e : Edge} : e ∈ g.edges ↔ e.target ∈ g.targets e.source := by
  simp only [edges, List.mem_flatMap, List.mem_map, mem_targets, Rows.Holds, Prod.exists]
  constructor
  · intro h
    obtain ⟨s, row, hrow, t, ht, rfl⟩ := h
    exact ⟨row, SortedMap.mem_toList_iff.mp hrow, ht⟩
  · intro h
    obtain ⟨row, hrow, ht⟩ := h
    exact ⟨e.source, row, SortedMap.mem_toList_iff.mpr hrow, e.target, ht, rfl⟩

theorem containsEdge_iff {g : Graph} {e : Edge} : g.containsEdge e = true ↔ e ∈ g.edges := by
  rw [mem_edges, containsEdge, List.contains_iff_mem]

theorem mem_targets_iff {g : Graph} {s t : NodeId} : t ∈ g.targets s ↔ ⟨s, t⟩ ∈ g.edges :=
  (mem_edges (e := ⟨s, t⟩)).symm

theorem holds_outgoing {g : Graph} {s t : NodeId} :
    Rows.Holds g.outgoing s t ↔ ⟨s, t⟩ ∈ g.edges := by
  rw [← mem_targets, mem_targets_iff]

theorem edges_increasing (g : Graph) : g.edges.Pairwise fun a b => compare a b = .lt := by
  have hkey : ∀ row ∈ g.outgoing.toList, ∀ e ∈ row.2.toList.map (Edge.mk row.1),
      e.source = row.1 := by
    intro row _ e he
    obtain ⟨t, -, rfl⟩ := List.mem_map.mp he
    rfl
  have hrow : ∀ row ∈ g.outgoing.toList, (row.2.toList.map (Edge.mk row.1)).Pairwise
      fun a b => compare a.target b.target = .lt :=
    fun row _ => List.pairwise_map.mpr row.2.increasing
  exact (SortedMap.pairwise_flatMap_toList g.outgoing _ Edge.source hkey hrow).imp
    Edge.compare_eq_lt.mpr

namespace Mirrored

variable {g : Graph}

theorem mem_sources_iff_edges (hg : g.Mirrored) {s t : NodeId} :
    s ∈ g.sources t ↔ ⟨s, t⟩ ∈ g.edges := by
  rw [hg.mem_sources_iff, mem_targets_iff]

theorem holds_incoming (hg : g.Mirrored) {s t : NodeId} :
    Rows.Holds g.incoming t s ↔ ⟨s, t⟩ ∈ g.edges := by
  rw [← mem_sources, hg.mem_sources_iff_edges]

theorem containsNode_source (hg : g.Mirrored) {e : Edge} (h : e ∈ g.edges) :
    g.containsNode e.source = true := by
  obtain ⟨row, hrow, -⟩ := mem_targets.mp (mem_edges.mp h)
  rw [← hg.outgoing_isSome, hrow]
  rfl

theorem containsNode_target (hg : g.Mirrored) {e : Edge} (h : e ∈ g.edges) :
    g.containsNode e.target = true := by
  obtain ⟨row, hrow, -⟩ := mem_sources.mp (hg.mem_sources_iff_edges.mpr h)
  rw [← hg.incoming_isSome, hrow]
  rfl

/-- No edge ends at a node that is not there. -/
theorem ends_ne_of_absent (hg : g.Mirrored) {id : NodeId} (hid : g.containsNode id = false)
    {e : Edge} (h : e ∈ g.edges) : e.source ≠ id ∧ e.target ≠ id := by
  constructor
  · intro hs
    have hnode := hg.containsNode_source h
    rw [hs, hid] at hnode
    cases hnode
  · intro ht
    have hnode := hg.containsNode_target h
    rw [ht, hid] at hnode
    cases hnode

theorem mem_incident (hg : g.Mirrored) {id : NodeId} {e : Edge} :
    e ∈ g.incident id ↔ e ∈ g.edges ∧ (e.source = id ∨ e.target = id) := by
  simp only [incident, List.mem_append, List.mem_map, mem_targets_iff, hg.mem_sources_iff_edges]
  constructor
  · intro h
    obtain ⟨t, ht, rfl⟩ | ⟨s, hs, rfl⟩ := h
    · exact ⟨ht, Or.inl rfl⟩
    · exact ⟨hs, Or.inr rfl⟩
  · intro h
    obtain ⟨he, rfl | rfl⟩ := h
    · exact Or.inl ⟨e.target, he, rfl⟩
    · exact Or.inr ⟨e.source, he, rfl⟩

end Mirrored

theorem mirrored_empty : Mirrored empty := by
  constructor <;> simp [empty, containsNode, SortedMap.contains, sources, targets]

end Graph

end AttachmentGrammar
