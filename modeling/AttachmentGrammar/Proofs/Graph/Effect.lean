import AttachmentGrammar.Proofs.Graph.Mirror
/-!
What an edit does to the classes and to the edges of a graph, said without the rows. Main
statements: an edit that fails leaves the graph as it was, a successful edit has exactly this
effect, and it keeps both rows of every edge.
-/
namespace AttachmentGrammar

/-- The class of a node once the edit is done. -/
def Edit.classAfter (g : Graph) : Edit → NodeId → Option String
  | .addNode id name, x | .setClass id name, x => if x = id then some name else g.class? x
  | .removeNode id, x => if x = id then none else g.class? x
  | .addEdge _, x | .removeEdge _, x => g.class? x

/-- Whether an edge is there once the edit is done. -/
def Edit.EdgeAfter (g : Graph) : Edit → Edge → Prop
  | .addNode _ _, x | .setClass _ _, x => x ∈ g.edges
  | .removeNode id, x => x ∈ g.edges ∧ x.source ≠ id ∧ x.target ≠ id
  | .addEdge e, x => x = e ∨ x ∈ g.edges
  | .removeEdge e, x => x ≠ e ∧ x ∈ g.edges

namespace Graph

variable {g g' : Graph} {c : Changes} {id : NodeId} {name : String} {e : Edge}

theorem edit_eq_ok {edit : Edit} : g.edit edit = .ok (g', c) ↔
    (g.perform edit).result = .ok c ∧ (g.perform edit).graph = g' := by
  rw [Graph.edit]
  cases (g.perform edit).result <;> simp [Except.map, and_comm]

theorem edit_eq_error {edit : Edit} {err : GraphError} :
    g.edit edit = .error err ↔ (g.perform edit).result = .error err := by
  rw [Graph.edit]
  cases (g.perform edit).result <;> simp [Except.map]

theorem addNode_eq_ok : g.edit (.addNode id name) = .ok (g', c) ↔
    g.containsNode id = false ∧ c = Changes.empty.touchNode id ∧ g' = {
      classes := g.classes.insert id name
      outgoing := g.outgoing.insert id .empty
      incoming := g.incoming.insert id .empty
      edgeCount := g.edgeCount } := by
  rw [edit_eq_ok]
  cases h : g.containsNode id <;> simp [perform, addNode, h, eq_comm]

theorem setClass_eq_ok : g.edit (.setClass id name) = .ok (g', c) ↔
    g.containsNode id = true ∧ c = g.changesAround id ∧
      g' = { g with classes := g.classes.insert id name } := by
  rw [edit_eq_ok]
  cases h : g.containsNode id <;> simp [perform, setClass, withNode, h, eq_comm]

theorem removeNode_eq_ok : g.edit (.removeNode id) = .ok (g', c) ↔
    g.containsNode id = true ∧ c = g.changesAround id ∧
      g' = ((g.dropOutgoing id).dropIncoming id).dropClass id := by
  rw [edit_eq_ok]
  cases h : g.containsNode id <;> simp [perform, removeNode, withNode, h, eq_comm]

/-- The row of the source holds the edge, and stays the same when it is put in again. -/
theorem linkSource_of_containsEdge (he : g.containsEdge e = true) : g.linkSource e = g := by
  have hrow : Rows.Holds g.outgoing e.source e.target := holds_outgoing.mpr (containsEdge_iff.mp he)
  rw [linkSource, Rows.modifyD_insert_of_holds hrow]

theorem addEdge_eq_ok : g.edit (.addEdge e) = .ok (g', c) ↔
    g.containsNode e.source = true ∧ g.containsNode e.target = true ∧
      (g.containsEdge e = true ∧ c = .empty ∧ g' = g ∨
        g.containsEdge e = false ∧ c = Changes.empty.touchEdge e ∧ g' = { g with
          outgoing := g.outgoing.modifyD e.source .empty fun targets => targets.insert e.target
          incoming := g.incoming.modifyD e.target .empty fun sources => sources.insert e.source
          edgeCount := g.edgeCount + 1 }) := by
  rw [edit_eq_ok]
  cases hs : g.containsNode e.source with
  | false => simp [perform, addEdge, withNode, hs]
  | true =>
    cases ht : g.containsNode e.target with
    | false => simp [perform, addEdge, withNode, hs, ht]
    | true =>
      cases he : g.containsEdge e with
      | true => simp [perform, addEdge, withNode, hs, ht, he, linkSource_of_containsEdge, eq_comm]
      | false => simp [perform, addEdge, withNode, hs, ht, he, linkSource, linkTarget, eq_comm]

theorem removeEdge_eq_ok : g.edit (.removeEdge e) = .ok (g', c) ↔
    g.containsEdge e = true ∧ c = Changes.empty.touchEdge e ∧ g' = { g with
      outgoing := g.outgoing.modify e.source fun targets => targets.erase e.target
      incoming := g.incoming.modify e.target fun sources => sources.erase e.source
      edgeCount := g.edgeCount - 1 } := by
  rw [edit_eq_ok]
  cases he : g.containsEdge e <;> simp [perform, removeEdge, unlinkTarget, he, eq_comm]

/-! What a failing edit leaves. -/

theorem graph_withNode_of_error {edited : Edited} {err : GraphError}
    (hedited : edited.result = .error err → edited.graph = g)
    (h : (g.withNode id edited).result = .error err) : (g.withNode id edited).graph = g := by
  rw [withNode] at h ⊢
  split
  · rename_i hnode
    rw [if_pos hnode] at h
    exact hedited h
  · rfl

/-- An edit that fails leaves the graph as it was. -/
theorem graph_perform_of_error {edit : Edit} {err : GraphError}
    (h : (g.perform edit).result = .error err) : (g.perform edit).graph = g := by
  cases edit with
  | addNode id name =>
    simp only [perform, addNode] at h ⊢
    split
    · rfl
    · rename_i hnew
      rw [if_neg hnew] at h
      cases h
  | setClass id name => exact graph_withNode_of_error (fun hok => by cases hok) h
  | removeNode id => exact graph_withNode_of_error (fun hok => by cases hok) h
  | addEdge e =>
    refine graph_withNode_of_error (fun htarget => ?_) h
    refine graph_withNode_of_error (fun hrow => ?_) htarget
    split at hrow <;> cases hrow
  | removeEdge e =>
    simp only [perform, removeEdge] at h ⊢
    split
    · rename_i he
      rw [if_pos he] at h
      cases h
    · rename_i he
      -- the source's row has been gone through by now, and did not hold the edge
      have hrow : ¬Rows.Holds g.outgoing e.source e.target := fun hrow =>
        he (containsEdge_iff.mpr (holds_outgoing.mp hrow))
      rw [Rows.modify_erase_of_not_holds hrow]

theorem step_of_edit_ok {edit : Edit} (h : g.edit edit = .ok (g', c)) : g.step edit = g' :=
  (edit_eq_ok.mp h).2

theorem step_of_edit_error {edit : Edit} {err : GraphError} (h : g.edit edit = .error err) :
    g.step edit = g :=
  graph_perform_of_error (edit_eq_error.mp h)

/-! What a successful edit leaves. -/

theorem foldl_unlinkTarget (g : Graph) (id : NodeId) (ts : List NodeId) :
    (ts.foldl (unlinkTarget id) g).classes = g.classes ∧
    (ts.foldl (unlinkTarget id) g).outgoing = g.outgoing := by
  induction ts generalizing g with
  | nil => exact ⟨rfl, rfl⟩
  | cons t ts ih => exact ih (unlinkTarget id g t)

theorem foldl_unlinkSource (g : Graph) (id : NodeId) (ss : List NodeId) :
    (ss.foldl (unlinkSource id) g).classes = g.classes ∧
    (ss.foldl (unlinkSource id) g).incoming = g.incoming := by
  induction ss generalizing g with
  | nil => exact ⟨rfl, rfl⟩
  | cons s ss ih => exact ih (unlinkSource id g s)

theorem incoming_foldl_unlinkTarget (g : Graph) (id : NodeId) (ts : List NodeId) (x y : NodeId) :
    ((ts.foldl (unlinkTarget id) g).incoming.get? x).isSome = (g.incoming.get? x).isSome ∧
    (Rows.Holds (ts.foldl (unlinkTarget id) g).incoming x y ↔
      Rows.Holds g.incoming x y ∧ ¬(x ∈ ts ∧ y = id)) := by
  induction ts generalizing g with
  | nil => simp
  | cons t ts ih =>
    obtain ⟨hsome, hrow⟩ := ih (unlinkTarget id g t)
    refine ⟨hsome.trans (Rows.isSome_modify _), hrow.trans ?_⟩
    rw [unlinkTarget, Rows.holds_modify_erase, List.mem_cons]
    grind

theorem outgoing_foldl_unlinkSource (g : Graph) (id : NodeId) (ss : List NodeId) (x y : NodeId) :
    ((ss.foldl (unlinkSource id) g).outgoing.get? x).isSome = (g.outgoing.get? x).isSome ∧
    (Rows.Holds (ss.foldl (unlinkSource id) g).outgoing x y ↔
      Rows.Holds g.outgoing x y ∧ ¬(x ∈ ss ∧ y = id)) := by
  induction ss generalizing g with
  | nil => simp
  | cons s ss ih =>
    obtain ⟨hsome, hrow⟩ := ih (unlinkSource id g s)
    refine ⟨hsome.trans (Rows.isSome_modify _), hrow.trans ?_⟩
    rw [unlinkSource, Rows.holds_modify_erase, List.mem_cons]
    grind

theorem class?_of_edit {edit : Edit} (h : g.edit edit = .ok (g', c)) (x : NodeId) :
    g'.class? x = edit.classAfter g x := by
  cases edit with
  | addNode id name =>
    obtain ⟨-, -, rfl⟩ := addNode_eq_ok.mp h
    exact SortedMap.get?_insert_eq _ _ _ _
  | setClass id name =>
    obtain ⟨-, -, rfl⟩ := setClass_eq_ok.mp h
    exact SortedMap.get?_insert_eq _ _ _ _
  | removeNode id =>
    obtain ⟨-, -, rfl⟩ := removeNode_eq_ok.mp h
    have hclasses : ((g.dropOutgoing id).dropIncoming id).classes = g.classes :=
      (foldl_unlinkSource _ _ _).1.trans (foldl_unlinkTarget _ _ _).1
    rw [class?, dropClass, hclasses]
    exact SortedMap.get?_erase_eq _ _ _
  | addEdge e =>
    obtain ⟨-, -, ⟨-, -, rfl⟩ | ⟨-, -, rfl⟩⟩ := addEdge_eq_ok.mp h <;> rfl
  | removeEdge e =>
    obtain ⟨-, -, rfl⟩ := removeEdge_eq_ok.mp h
    rfl

theorem holds_incoming_dropOutgoing (g : Graph) (id x y : NodeId) :
    Rows.Holds (g.dropOutgoing id).incoming x y ↔
      Rows.Holds g.incoming x y ∧ ¬(x ∈ g.targets id ∧ y = id) :=
  (incoming_foldl_unlinkTarget _ _ _ _ _).2

theorem holds_incoming_removed (hg : g.Mirrored) (id x y : NodeId) :
    Rows.Holds ((g.dropOutgoing id).dropIncoming id).incoming x y ↔
      Rows.Holds g.incoming x y ∧ x ≠ id ∧ y ≠ id := by
  have hrow : Rows.Holds ((g.dropOutgoing id).dropIncoming id).incoming x y ↔
      x ≠ id ∧ Rows.Holds (g.dropOutgoing id).incoming x y := by
    rw [dropIncoming, (foldl_unlinkSource _ _ _).2, Rows.holds_erase]
  have hmirror : Rows.Holds g.incoming x id ↔ x ∈ g.targets id := by
    rw [← mem_sources, hg.mem_sources_iff]
  rw [hrow, holds_incoming_dropOutgoing]
  grind

theorem holds_outgoing_removed (hg : g.Mirrored) (id x y : NodeId) :
    Rows.Holds ((g.dropOutgoing id).dropIncoming id).outgoing x y ↔
      Rows.Holds g.outgoing x y ∧ x ≠ id ∧ y ≠ id := by
  have hrow : Rows.Holds ((g.dropOutgoing id).dropIncoming id).outgoing x y ↔
      (x ≠ id ∧ Rows.Holds g.outgoing x y) ∧ ¬(x ∈ (g.dropOutgoing id).sources id ∧ y = id) := by
    rw [dropIncoming, (outgoing_foldl_unlinkSource _ _ _ x y).2, dropOutgoing,
      (foldl_unlinkTarget _ _ _).2, Rows.holds_erase]
  -- a self loop has left the incoming row by now, and needs no second removal
  have hsources : x ∈ (g.dropOutgoing id).sources id ↔
      Rows.Holds g.outgoing x id ∧ ¬(id ∈ g.targets id ∧ x = id) := by
    rw [mem_sources, holds_incoming_dropOutgoing, ← mem_sources, hg.mem_sources_iff, mem_targets]
  rw [hrow, hsources]
  grind

theorem isSome_outgoing_removed (g : Graph) (id x : NodeId) :
    (((g.dropOutgoing id).dropIncoming id).outgoing.get? x).isSome =
      if x = id then false else (g.outgoing.get? x).isSome := by
  rw [dropIncoming, (outgoing_foldl_unlinkSource _ _ _ x x).1, dropOutgoing,
    (foldl_unlinkTarget _ _ _).2, SortedMap.get?_erase_eq]
  split <;> rfl

theorem isSome_incoming_removed (g : Graph) (id x : NodeId) :
    (((g.dropOutgoing id).dropIncoming id).incoming.get? x).isSome =
      if x = id then false else (g.incoming.get? x).isSome := by
  rw [dropIncoming, (foldl_unlinkSource _ _ _).2, SortedMap.get?_erase_eq]
  split
  · rfl
  · exact (incoming_foldl_unlinkTarget _ _ _ x x).1

theorem holds_outgoing_of_edit {edit : Edit} (hg : g.Mirrored) (h : g.edit edit = .ok (g', c))
    (s t : NodeId) : Rows.Holds g'.outgoing s t ↔ edit.EdgeAfter g ⟨s, t⟩ := by
  cases edit with
  | addNode id name =>
    obtain ⟨hid, -, rfl⟩ := addNode_eq_ok.mp h
    rw [Rows.holds_insert_empty, holds_outgoing]
    exact and_iff_right_of_imp fun he => (hg.ends_ne_of_absent hid he).1
  | setClass id name =>
    obtain ⟨-, -, rfl⟩ := setClass_eq_ok.mp h
    exact holds_outgoing
  | removeNode id =>
    obtain ⟨-, -, rfl⟩ := removeNode_eq_ok.mp h
    exact (holds_outgoing_removed hg id s t).trans (and_congr_left' holds_outgoing)
  | addEdge e =>
    obtain ⟨-, -, ⟨he, -, rfl⟩ | ⟨-, -, rfl⟩⟩ := addEdge_eq_ok.mp h
    · rw [holds_outgoing]
      refine ⟨Or.inr, fun hx => hx.elim (fun hx => ?_) id⟩
      exact hx ▸ containsEdge_iff.mp he
    · rw [Rows.holds_modifyD_insert, holds_outgoing, or_comm]
      cases e
      simp [Edit.EdgeAfter]
  | removeEdge e =>
    obtain ⟨-, -, rfl⟩ := removeEdge_eq_ok.mp h
    rw [Rows.holds_modify_erase, holds_outgoing, and_comm]
    cases e
    simp [Edit.EdgeAfter]

theorem holds_incoming_of_edit {edit : Edit} (hg : g.Mirrored) (h : g.edit edit = .ok (g', c))
    (s t : NodeId) : Rows.Holds g'.incoming t s ↔ edit.EdgeAfter g ⟨s, t⟩ := by
  cases edit with
  | addNode id name =>
    obtain ⟨hid, -, rfl⟩ := addNode_eq_ok.mp h
    rw [Rows.holds_insert_empty, hg.holds_incoming]
    exact and_iff_right_of_imp fun he => (hg.ends_ne_of_absent hid he).2
  | setClass id name =>
    obtain ⟨-, -, rfl⟩ := setClass_eq_ok.mp h
    exact hg.holds_incoming
  | removeNode id =>
    obtain ⟨-, -, rfl⟩ := removeNode_eq_ok.mp h
    exact (holds_incoming_removed hg id t s).trans
      (and_congr hg.holds_incoming and_comm)
  | addEdge e =>
    obtain ⟨-, -, ⟨he, -, rfl⟩ | ⟨-, -, rfl⟩⟩ := addEdge_eq_ok.mp h
    · rw [hg.holds_incoming]
      refine ⟨Or.inr, fun hx => hx.elim (fun hx => ?_) id⟩
      exact hx ▸ containsEdge_iff.mp he
    · rw [Rows.holds_modifyD_insert, hg.holds_incoming, or_comm]
      cases e
      simp [Edit.EdgeAfter, and_comm]
  | removeEdge e =>
    obtain ⟨-, -, rfl⟩ := removeEdge_eq_ok.mp h
    rw [Rows.holds_modify_erase, hg.holds_incoming, and_comm]
    cases e
    simp [Edit.EdgeAfter, and_comm]

theorem mem_edges_of_edit {edit : Edit} (hg : g.Mirrored) (h : g.edit edit = .ok (g', c))
    (x : Edge) : x ∈ g'.edges ↔ edit.EdgeAfter g x :=
  holds_outgoing.symm.trans (holds_outgoing_of_edit hg h x.source x.target)

theorem isSome_rows_of_edit {edit : Edit} (hg : g.Mirrored) (h : g.edit edit = .ok (g', c))
    (x : NodeId) : (g'.outgoing.get? x).isSome = (edit.classAfter g x).isSome ∧
      (g'.incoming.get? x).isSome = (edit.classAfter g x).isSome := by
  have hx : (g.outgoing.get? x).isSome = (g.class? x).isSome ∧
      (g.incoming.get? x).isSome = (g.class? x).isSome :=
    ⟨hg.outgoing_isSome x, hg.incoming_isSome x⟩
  cases edit with
  | addNode id name =>
    obtain ⟨-, -, rfl⟩ := addNode_eq_ok.mp h
    by_cases hid : x = id <;> simp [SortedMap.get?_insert_eq, Edit.classAfter, hid, hx]
  | setClass id name =>
    obtain ⟨hnode, -, rfl⟩ := setClass_eq_ok.mp h
    by_cases hid : x = id
    · subst hid
      exact ⟨by simpa [Edit.classAfter] using (hg.outgoing_isSome x).trans hnode,
        by simpa [Edit.classAfter] using (hg.incoming_isSome x).trans hnode⟩
    · simpa [Edit.classAfter, hid] using hx
  | removeNode id =>
    obtain ⟨-, -, rfl⟩ := removeNode_eq_ok.mp h
    by_cases hid : x = id <;>
      simp [dropClass, isSome_outgoing_removed, isSome_incoming_removed, Edit.classAfter, hid, hx]
  | addEdge e =>
    obtain ⟨hs, ht, ⟨-, -, rfl⟩ | ⟨-, -, rfl⟩⟩ := addEdge_eq_ok.mp h
    · exact hx
    · -- both ends are nodes and have their rows, so that no row is made for an absent node
      have hsource := (hg.outgoing_isSome e.source).trans hs
      have htarget := (hg.incoming_isSome e.target).trans ht
      exact ⟨(Rows.isSome_modifyD hsource _ _).trans hx.1,
        (Rows.isSome_modifyD htarget _ _).trans hx.2⟩
  | removeEdge e =>
    obtain ⟨-, -, rfl⟩ := removeEdge_eq_ok.mp h
    exact ⟨(Rows.isSome_modify _).trans hx.1, (Rows.isSome_modify _).trans hx.2⟩

/-- Every edit keeps both rows of every edge. -/
theorem mirrored_of_edit {edit : Edit} (hg : g.Mirrored) (h : g.edit edit = .ok (g', c)) :
    g'.Mirrored := by
  have hnode (x : NodeId) : g'.containsNode x = (edit.classAfter g x).isSome :=
    congrArg Option.isSome (class?_of_edit h x)
  constructor
  · intro x
    rw [hnode, (isSome_rows_of_edit hg h x).1]
  · intro x
    rw [hnode, (isSome_rows_of_edit hg h x).2]
  · intro s t
    rw [mem_sources, mem_targets, holds_incoming_of_edit hg h, holds_outgoing_of_edit hg h]

theorem mirrored_step (hg : g.Mirrored) (edit : Edit) : (g.step edit).Mirrored := by
  cases h : g.edit edit with
  | error err => exact (step_of_edit_error h).symm ▸ hg
  | ok edited => exact (step_of_edit_ok h).symm ▸ mirrored_of_edit hg h

theorem mirrored_run (edits : List Edit) (hg : g.Mirrored) : (run edits g).Mirrored := by
  induction edits generalizing g with
  | nil => exact hg
  | cons edit edits ih => exact ih (mirrored_step hg edit)

end Graph

end AttachmentGrammar
