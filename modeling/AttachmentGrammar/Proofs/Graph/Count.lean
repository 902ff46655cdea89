import AttachmentGrammar.Proofs.Graph.Effect
/-!
The number of edges, which a graph keeps beside its rows. Main statements: the two loops of a
removal go through every edge at the node exactly once, no count down of an edit starts at 0, and
every edit keeps the count equal to the number of edges.
-/
namespace AttachmentGrammar

namespace Graph

variable {g g' : Graph} {c : Changes} {id : NodeId} {e : Edge} {edit : Edit}

theorem nodup_edges (g : Graph) : g.edges.Nodup :=
  g.edges_increasing.imp fun hlt heq => by simp [heq] at hlt

/-! Loops that count down. -/

/-- Going through a row, no step starts with the count 0. -/
def CountsDown (unlink : Graph → NodeId → Graph) (g : Graph) (row : List NodeId) : Prop :=
  ∀ done x rest, row = done ++ x :: rest → 0 < (done.foldl unlink g).edgeCount

variable {unlink : Graph → NodeId → Graph}

theorem edgeCount_foldl (hunlink : ∀ g x, (unlink g x).edgeCount = g.edgeCount - 1)
    (row : List NodeId) (g : Graph) :
    (row.foldl unlink g).edgeCount = g.edgeCount - row.length := by
  induction row generalizing g with
  | nil => rfl
  | cons x row ih =>
    rw [List.foldl_cons, ih, hunlink, List.length_cons]
    omega

theorem countsDown_of_length_le (hunlink : ∀ g x, (unlink g x).edgeCount = g.edgeCount - 1)
    {row : List NodeId} (h : row.length ≤ g.edgeCount) : CountsDown unlink g row := by
  intro done x rest hrow
  have hlength : row.length = done.length + (rest.length + 1) := by
    rw [hrow, List.length_append, List.length_cons]
  rw [edgeCount_foldl hunlink]
  omega

theorem edgeCount_dropOutgoing (g : Graph) (id : NodeId) :
    (g.dropOutgoing id).edgeCount = g.edgeCount - (g.targets id).length :=
  edgeCount_foldl (fun _ _ => rfl) _ _

theorem edgeCount_dropIncoming (g : Graph) (id : NodeId) :
    (g.dropIncoming id).edgeCount = g.edgeCount - (g.sources id).length :=
  edgeCount_foldl (fun _ _ => rfl) _ _

/-! The edges that a removal goes through. -/

/-- The edges out of the node, then those that its incoming row still holds. -/
def leaving (g : Graph) (id : NodeId) : List Edge :=
  ((g.targets id).map fun target => ⟨id, target⟩) ++
    ((g.dropOutgoing id).sources id).map fun source => ⟨source, id⟩

theorem length_leaving (g : Graph) (id : NodeId) :
    (g.leaving id).length = (g.targets id).length + ((g.dropOutgoing id).sources id).length := by
  rw [leaving, List.length_append, List.length_map, List.length_map]

/-- A loop has left the incoming row together with the outgoing edges. -/
theorem mem_sources_dropOutgoing (hg : g.Mirrored) {s : NodeId} :
    s ∈ (g.dropOutgoing id).sources id ↔ ⟨s, id⟩ ∈ g.edges ∧ s ≠ id := by
  rw [mem_sources, holds_incoming_dropOutgoing, hg.holds_incoming, mem_targets_iff]
  constructor
  · intro h
    obtain ⟨he, hloop⟩ := h
    refine ⟨he, ?_⟩
    rintro rfl
    exact hloop ⟨he, rfl⟩
  · intro h
    obtain ⟨he, hne⟩ := h
    exact ⟨he, fun hloop => hne hloop.2⟩

theorem mem_leaving (hg : g.Mirrored) :
    e ∈ g.leaving id ↔ e ∈ g.edges ∧ (e.source = id ∨ e.target = id) := by
  simp only [leaving, List.mem_append, List.mem_map, mem_targets_iff, mem_sources_dropOutgoing hg]
  constructor
  · intro h
    obtain ⟨t, ht, rfl⟩ | ⟨s, ⟨hs, -⟩, rfl⟩ := h
    · exact ⟨ht, .inl rfl⟩
    · exact ⟨hs, .inr rfl⟩
  · intro h
    obtain ⟨he, hends⟩ := h
    by_cases hs : e.source = id
    · subst hs
      exact .inl ⟨e.target, he, rfl⟩
    · obtain rfl := hends.resolve_left hs
      exact .inr ⟨e.source, ⟨he, hs⟩, rfl⟩

theorem nodup_leaving (hg : g.Mirrored) : (g.leaving id).Nodup := by
  rw [leaving, List.nodup_append]
  refine ⟨?_, ?_, ?_⟩
  · exact List.pairwise_map.mpr ((SortedSet.nodup_toList _).imp fun hne h => hne (Edge.mk.inj h).2)
  · exact List.pairwise_map.mpr ((SortedSet.nodup_toList _).imp fun hne h => hne (Edge.mk.inj h).1)
  · intro a ha b hb hab
    obtain ⟨t, -, rfl⟩ := List.mem_map.mp ha
    obtain ⟨s, hs, rfl⟩ := List.mem_map.mp hb
    exact ((mem_sources_dropOutgoing hg).mp hs).2 (Edge.mk.inj hab).1.symm

theorem leaving_perm (hg : g.Mirrored) :
    (g.leaving id).Perm (g.edges.filter fun e => e.source = id ∨ e.target = id) := by
  have hnodup := g.nodup_edges.filter fun e => decide (e.source = id ∨ e.target = id)
  refine (List.perm_ext_iff_of_nodup (nodup_leaving hg) hnodup).mpr fun e => ?_
  rw [mem_leaving hg, List.mem_filter, decide_eq_true_eq]

theorem length_leaving_le (hg : g.Mirrored) : (g.leaving id).length ≤ g.edges.length := by
  rw [(leaving_perm hg).length_eq]
  exact List.length_filter_le _ _

/-- A removal goes through each edge at the node once and keeps all others. -/
theorem edges_perm_removeNode (hg : g.Mirrored) (h : g.edit (.removeNode id) = .ok (g', c)) :
    g.edges.Perm (g.leaving id ++ g'.edges) := by
  have hafter (x : Edge) : x ∈ g'.edges ↔ x ∈ g.edges ∧ x.source ≠ id ∧ x.target ≠ id :=
    mem_edges_of_edit hg h x
  have hnodup : (g.leaving id ++ g'.edges).Nodup := by
    rw [List.nodup_append]
    refine ⟨nodup_leaving hg, g'.nodup_edges, ?_⟩
    rintro a ha b hb rfl
    obtain ⟨-, hs, ht⟩ := (hafter a).mp hb
    exact ((mem_leaving hg).mp ha).2.elim hs ht
  refine (List.perm_ext_iff_of_nodup g.nodup_edges hnodup).mpr fun x => ?_
  rw [List.mem_append, mem_leaving hg, hafter]
  grind

theorem edges_perm_addEdge (hg : g.Mirrored) (h : g.edit (.addEdge e) = .ok (g', c))
    (he : e ∉ g.edges) : g'.edges.Perm (e :: g.edges) := by
  have hnodup : (e :: g.edges).Nodup := List.nodup_cons.mpr ⟨he, g.nodup_edges⟩
  refine (List.perm_ext_iff_of_nodup g'.nodup_edges hnodup).mpr fun x => ?_
  rw [mem_edges_of_edit hg h, List.mem_cons]
  exact Iff.rfl

theorem edges_perm_removeEdge (hg : g.Mirrored) (h : g.edit (.removeEdge e) = .ok (g', c)) :
    g.edges.Perm (e :: g'.edges) := by
  have hafter (x : Edge) : x ∈ g'.edges ↔ x ≠ e ∧ x ∈ g.edges :=
    mem_edges_of_edit hg h x
  have hmem : e ∈ g.edges := containsEdge_iff.mp (removeEdge_eq_ok.mp h).1
  have hnot : e ∉ g'.edges := fun he => ((hafter e).mp he).1 rfl
  have hnodup : (e :: g'.edges).Nodup := List.nodup_cons.mpr ⟨hnot, g'.nodup_edges⟩
  refine (List.perm_ext_iff_of_nodup g.nodup_edges hnodup).mpr fun x => ?_
  rw [List.mem_cons, hafter]
  by_cases hx : x = e
  · simp [hx, hmem]
  · simp [hx]

/-! The count under edits. -/

def Counted (g : Graph) : Prop := g.edgeCount = g.edges.length

theorem counted_of_edit (hg : g.Mirrored) (hc : g.Counted) (h : g.edit edit = .ok (g', c)) :
    g'.Counted := by
  cases edit with
  | addNode id name =>
    have hedges : g'.edges.length = g.edges.length := by
      refine ((List.perm_ext_iff_of_nodup g'.nodup_edges g.nodup_edges).mpr ?_).length_eq
      exact fun x => mem_edges_of_edit hg h x
    obtain ⟨-, -, rfl⟩ := addNode_eq_ok.mp h
    exact hc.trans hedges.symm
  | setClass id name =>
    obtain ⟨-, -, rfl⟩ := setClass_eq_ok.mp h
    exact hc
  | removeNode id =>
    have hlength := (edges_perm_removeNode hg h).length_eq
    obtain ⟨-, -, rfl⟩ := removeNode_eq_ok.mp h
    rw [List.length_append, length_leaving] at hlength
    have hcount : (((g.dropOutgoing id).dropIncoming id).dropClass id).edgeCount =
        g.edgeCount - (g.targets id).length - ((g.dropOutgoing id).sources id).length := by
      rw [dropClass, edgeCount_dropIncoming, edgeCount_dropOutgoing]
    rw [Counted, hcount, hc]
    omega
  | addEdge e =>
    obtain ⟨-, -, ⟨-, -, rfl⟩ | ⟨hnew, -, hg'⟩⟩ := addEdge_eq_ok.mp h
    · exact hc
    · have hnot : e ∉ g.edges := fun he => by simp [containsEdge_iff.mpr he] at hnew
      rw [Counted, (edges_perm_addEdge hg h hnot).length_eq, List.length_cons, hg', hc]
  | removeEdge e =>
    have hlength := (edges_perm_removeEdge hg h).length_eq
    obtain ⟨-, -, rfl⟩ := removeEdge_eq_ok.mp h
    rw [List.length_cons] at hlength
    rw [Counted, hc, hlength]
    rfl

end Graph

/-- Each count down that the edit makes starts above 0. -/
def Edit.CountsDown (g : Graph) : Edit → Prop
  | .addNode _ _ | .setClass _ _ | .addEdge _ => True
  | .removeNode id =>
    Graph.CountsDown (Graph.unlinkTarget id) { g with outgoing := g.outgoing.erase id }
        (g.targets id) ∧
      Graph.CountsDown (Graph.unlinkSource id)
        { g.dropOutgoing id with incoming := (g.dropOutgoing id).incoming.erase id }
        ((g.dropOutgoing id).sources id)
  | .removeEdge e => e ∈ g.edges → 0 < g.edgeCount

namespace Graph

variable {g : Graph}

theorem countsDown_edit (hg : g.Mirrored) (hc : g.Counted) (edit : Edit) : edit.CountsDown g := by
  cases edit with
  | addNode id name => trivial
  | setClass id name => trivial
  | removeNode id =>
    have hle : (g.leaving id).length ≤ g.edges.length := length_leaving_le hg
    rw [length_leaving, ← hc] at hle
    constructor
    · exact countsDown_of_length_le (fun _ _ => rfl) (Nat.le_trans (Nat.le_add_right _ _) hle)
    · refine countsDown_of_length_le (fun _ _ => rfl) ?_
      show _ ≤ (g.dropOutgoing id).edgeCount
      rw [edgeCount_dropOutgoing]
      omega
  | addEdge e => trivial
  | removeEdge e =>
    intro he
    rw [hc]
    exact List.length_pos_of_mem he

end Graph

end AttachmentGrammar
