import AttachmentGrammar.Graph.Document
import AttachmentGrammar.Proofs.Graph.Plain
import Mathlib.Data.List.Dedup
import Mathlib.Data.List.Induction
/-!
Graph documents loaded and written. Main statements: a document is loaded exactly if its nodes are
distinct and its edges join them, and otherwise the first fault is the error; the graph hangs on the
sets of the nodes and the edges alone, and so does any graph, whatever edits led to it; and what is
written for a graph is loaded as the same graph.
-/
namespace AttachmentGrammar

/-! Lists. -/

/-- Items with different keys are in strict order once they are sorted by key. -/
theorem increasing_mergeSort {α κ : Type} [Ord κ] [Std.TransOrd κ] [Std.LawfulEqOrd κ] (key : α → κ)
    {items : List α} (h : (items.map key).Nodup) :
    (items.mergeSort fun a b => (compare (key a) (key b)).isLE).Pairwise fun a b =>
      compare (key a) (key b) = .lt := by
  have hne : (items.mergeSort fun a b => (compare (key a) (key b)).isLE).Pairwise fun a b =>
      key a ≠ key b := by
    rw [← List.pairwise_map]
    exact ((List.mergeSort_perm items _).map key).nodup_iff.mpr h
  refine ((sorted_mergeSort key items).and hne).imp fun {a b} hab => ?_
  obtain ⟨hle, hdistinct⟩ := hab
  refine (Ordering.isLE_iff_eq_lt_or_eq_eq.mp hle).resolve_right fun heq => hdistinct ?_
  exact Std.LawfulEqCmp.compare_eq_iff_eq.mp heq

/-- What holds of the empty prefix of a list and not of the list stops to hold at some place. -/
theorem exists_first_failure {α : Type} (p : List α → Prop) (hnil : p []) {items : List α}
    (h : ¬p items) :
    ∃ before x after, items = before ++ x :: after ∧ p before ∧ ¬p (before ++ [x]) := by
  induction items using List.reverseRecOn with
  | nil => exact (h hnil).elim
  | append_singleton items x ih =>
    by_cases hp : p items
    · exact ⟨items, x, [], rfl, hp, h⟩
    · obtain ⟨before, y, after, rfl, hbefore, hy⟩ := ih hp
      refine ⟨before, y, after ++ [x], ?_, hbefore, hy⟩
      rw [List.append_assoc, List.cons_append]

/-! What a document says. -/

def LabelledNode.edit (node : LabelledNode) : Edit := .addNode node.id node.className

namespace Document

def ids (d : Document) : List NodeId := d.nodes.map LabelledNode.id

def Joins (d : Document) (e : Edge) : Prop := e.source ∈ d.ids ∧ e.target ∈ d.ids

structure Consistent (d : Document) : Prop where
  nodup_ids : d.ids.Nodup
  joins : ∀ e ∈ d.edges, d.Joins e

instance (d : Document) (e : Edge) : Decidable (d.Joins e) :=
  inferInstanceAs (Decidable (e.source ∈ d.ids ∧ e.target ∈ d.ids))

instance (d : Document) : Decidable d.Consistent :=
  decidable_of_iff (d.ids.Nodup ∧ ∀ e ∈ d.edges, d.Joins e)
    ⟨fun h => ⟨h.1, h.2⟩, fun h => ⟨h.nodup_ids, h.joins⟩⟩

/-- The first fault, where nodes come before edges and the source of an edge before its target. -/
inductive Fault (d : Document) : GraphError → Prop where
  | repeated {before after : List NodeId} {id : NodeId} (split : d.ids = before ++ id :: after)
      (nodup : before.Nodup) (mem : id ∈ before) : Fault d (.duplicateNode id)
  | source {before after : List Edge} {e : Edge} (nodup_ids : d.ids.Nodup)
      (split : d.edges = before ++ e :: after) (joins : ∀ b ∈ before, d.Joins b)
      (absent : e.source ∉ d.ids) : Fault d (.missingNode e.source)
  | target {before after : List Edge} {e : Edge} (nodup_ids : d.ids.Nodup)
      (split : d.edges = before ++ e :: after) (joins : ∀ b ∈ before, d.Joins b)
      (present : e.source ∈ d.ids) (absent : e.target ∉ d.ids) : Fault d (.missingNode e.target)

/-- The edits that build what the document says. -/
def edits (d : Document) : List Edit := d.nodes.map LabelledNode.edit ++ d.edges.map .addEdge

/-- The nodes by number and the edges by source and target, each edge once. -/
def sorted (d : Document) : Document where
  nodes := d.nodes.mergeSort fun a b => (compare a.id b.id).isLE
  edges := d.edges.dedup.mergeSort fun a b => (compare a b).isLE

theorem consistent_or_fault (d : Document) : d.Consistent ∨ ∃ err, d.Fault err := by
  by_cases hids : d.ids.Nodup
  · by_cases hjoins : ∀ e ∈ d.edges, d.Joins e
    · exact .inl ⟨hids, hjoins⟩
    · right
      obtain ⟨before, e, after, hsplit, hbefore, he⟩ :=
        exists_first_failure (fun edges => ∀ e ∈ edges, d.Joins e) (by simp) hjoins
      have hnot : ¬d.Joins e := fun hjoin =>
        he (List.forall_mem_append.mpr ⟨hbefore, List.forall_mem_singleton.mpr hjoin⟩)
      by_cases hsource : e.source ∈ d.ids
      · exact ⟨_, .target hids hsplit hbefore hsource fun htarget => hnot ⟨hsource, htarget⟩⟩
      · exact ⟨_, .source hids hsplit hbefore hsource⟩
  · right
    obtain ⟨before, id, after, hsplit, hbefore, hid⟩ :=
      exists_first_failure List.Nodup List.nodup_nil hids
    refine ⟨_, .repeated hsplit hbefore ?_⟩
    by_contra hnot
    exact hid (List.nodup_append.mpr ⟨hbefore, List.nodup_singleton id, by grind⟩)

end Document

/-! Graphs as values. -/

theorem Rows.ext {rows rows' : Rows}
    (hkeys : ∀ id, (rows.get? id).isSome = (rows'.get? id).isSome)
    (hholds : ∀ x y, rows.Holds x y ↔ rows'.Holds x y) : rows = rows' := by
  apply SortedMap.ext_get?
  intro id
  cases hrow : rows.get? id with
  | none =>
    have hnone := hkeys id
    rw [hrow] at hnone
    exact (Option.isNone_iff_eq_none.mp (by simpa using hnone.symm)).symm
  | some row =>
    have hsome := hkeys id
    rw [hrow] at hsome
    obtain ⟨row', hrow'⟩ := Option.isSome_iff_exists.mp hsome.symm
    rw [hrow', Option.some.injEq]
    apply SortedSet.ext
    intro x
    have hx := hholds id x
    simpa [Rows.Holds, hrow, hrow'] using hx

namespace Graph

variable {g g' : Graph} {c : Changes}

/-- A graph whose rows mirror each other and are counted is its classes and its edges. -/
theorem eq_of_class?_of_edges (hg : g.Mirrored) (hc : g.Counted) (hg' : g'.Mirrored)
    (hc' : g'.Counted) (hclass : ∀ id, g.class? id = g'.class? id)
    (hedges : ∀ e, e ∈ g.edges ↔ e ∈ g'.edges) : g = g' := by
  have hnode (id : NodeId) : g.containsNode id = g'.containsNode id :=
    congrArg Option.isSome (hclass id)
  have hclasses : g.classes = g'.classes := SortedMap.ext_get? hclass
  have houtgoing : g.outgoing = g'.outgoing := by
    apply Rows.ext
    · intro id
      rw [hg.outgoing_isSome, hg'.outgoing_isSome, hnode]
    · intro x y
      rw [holds_outgoing, holds_outgoing, hedges]
  have hincoming : g.incoming = g'.incoming := by
    apply Rows.ext
    · intro id
      rw [hg.incoming_isSome, hg'.incoming_isSome, hnode]
    · intro x y
      rw [hg.holds_incoming, hg'.holds_incoming, hedges]
  have hcount : g.edgeCount = g'.edgeCount := by
    have hsame : g.edges = g'.edges := by rw [edges, edges, houtgoing]
    rw [hc, hc', hsame]
  calc
    g = ⟨g.classes, g.outgoing, g.incoming, g.edgeCount⟩ := rfl
    _ = g' := by rw [hclasses, houtgoing, hincoming, hcount]

/-! Loading. -/

/-- The graph has the nodes and the edges of the document, and is otherwise as edits leave it. -/
structure Realizes (g : Graph) (d : Document) : Prop where
  mirrored : g.Mirrored
  counted : g.Counted
  class?_eq_some_iff : ∀ id name, g.class? id = some name ↔ ⟨id, name⟩ ∈ d.nodes
  mem_edges_iff : ∀ e, e ∈ g.edges ↔ e ∈ d.edges

theorem realizes_empty : Realizes .empty ⟨[], []⟩ where
  mirrored := mirrored_empty
  counted := rfl
  class?_eq_some_iff := by simp [class?, empty]
  mem_edges_iff := by simp [edges, empty, SortedMap.empty]

namespace Realizes

variable {d : Document}

theorem containsNode_iff (h : g.Realizes d) {id : NodeId} :
    g.containsNode id = true ↔ id ∈ d.ids := by
  rw [Graph.containsNode_iff, Document.ids, List.mem_map]
  constructor
  · intro hclass
    obtain ⟨name, hname⟩ := hclass
    exact ⟨⟨id, name⟩, (h.class?_eq_some_iff id name).mp hname, rfl⟩
  · intro hnode
    obtain ⟨node, hnode, rfl⟩ := hnode
    exact ⟨node.className, (h.class?_eq_some_iff _ _).mpr hnode⟩

theorem eq (h : g.Realizes d) (h' : g'.Realizes d) : g = g' := by
  refine eq_of_class?_of_edges h.mirrored h.counted h'.mirrored h'.counted (fun id => ?_)
    fun e => (h.mem_edges_iff e).trans (h'.mem_edges_iff e).symm
  apply Option.ext
  intro name
  rw [h.class?_eq_some_iff, h'.class?_eq_some_iff]

theorem of_mem_iff {d' : Document} (h : g.Realizes d) (hnodes : ∀ n, n ∈ d'.nodes ↔ n ∈ d.nodes)
    (hedges : ∀ e, e ∈ d'.edges ↔ e ∈ d.edges) : g.Realizes d' where
  mirrored := h.mirrored
  counted := h.counted
  class?_eq_some_iff id name := (h.class?_eq_some_iff id name).trans (hnodes _).symm
  mem_edges_iff e := (h.mem_edges_iff e).trans (hedges e).symm

end Realizes

/-! One edit. -/

variable {d d' : Document} {e : Edge} {edit : Edit} {err : GraphError}

theorem exists_edit_eq_ok (h : g.plain.refusal? edit = none) :
    ∃ g' c, g.edit edit = .ok (g', c) := by
  cases hedit : g.edit edit with
  | error err =>
    rw [edit_eq_error_iff, h] at hedit
    cases hedit
  | ok edited => exact ⟨edited.1, edited.2, rfl⟩

namespace Realizes

theorem contains_eq (h : g.Realizes d) (id : NodeId) :
    g.plain.classes.contains id = decide (id ∈ d.ids) := by
  rw [Bool.eq_iff_iff, decide_eq_true_eq]
  exact h.containsNode_iff

theorem of_edit (h : g.Realizes d) (hok : g.edit edit = .ok (g', c))
    (hclass : ∀ id name, edit.classAfter g id = some name ↔ ⟨id, name⟩ ∈ d'.nodes)
    (hedges : ∀ e, edit.EdgeAfter g e ↔ e ∈ d'.edges) : g'.Realizes d' where
  mirrored := mirrored_of_edit h.mirrored hok
  counted := counted_of_edit h.mirrored h.counted hok
  class?_eq_some_iff id name := by rw [class?_of_edit hok, hclass]
  mem_edges_iff e := (mem_edges_of_edit h.mirrored hok e).trans (hedges e)

theorem addNode {node : LabelledNode} (h : g.Realizes d) (hid : node.id ∉ d.ids) :
    ∃ g' c, g.edit node.edit = .ok (g', c) ∧ g'.Realizes { d with nodes := d.nodes ++ [node] } := by
  obtain ⟨id, className⟩ := node
  have hnone : g.plain.refusal? (.addNode id className) = none := by
    simpa [PlainGraph.refusal?, h.contains_eq] using hid
  obtain ⟨g', c, hok⟩ := exists_edit_eq_ok hnone
  refine ⟨g', c, hok, h.of_edit hok (fun x name => ?_) h.mem_edges_iff⟩
  rw [Edit.classAfter]
  by_cases hx : x = id
  · subst hx
    have hnot : ⟨x, name⟩ ∉ d.nodes := fun hmem => hid (List.mem_map.mpr ⟨_, hmem, rfl⟩)
    simp [hnot, eq_comm]
  · simp [hx, h.class?_eq_some_iff]

theorem addEdge (h : g.Realizes d) (he : d.Joins e) :
    ∃ g' c, g.edit (.addEdge e) = .ok (g', c) ∧
      g'.Realizes { d with edges := d.edges ++ [e] } := by
  have hnone : g.plain.refusal? (.addEdge e) = none := by
    simp [PlainGraph.refusal?, h.contains_eq, he.1, he.2]
  obtain ⟨g', c, hok⟩ := exists_edit_eq_ok hnone
  refine ⟨g', c, hok, h.of_edit hok h.class?_eq_some_iff fun x => ?_⟩
  rw [Edit.EdgeAfter, h.mem_edges_iff, or_comm]
  simp

/-! What is refused. -/

theorem addNode_of_mem {node : LabelledNode} (h : g.Realizes d) (hid : node.id ∈ d.ids) :
    g.edit node.edit = .error (.duplicateNode node.id) :=
  edit_eq_error_iff.mpr (by simp [LabelledNode.edit, PlainGraph.refusal?, h.contains_eq, hid])

theorem addEdge_of_source_absent (h : g.Realizes d) (hsource : e.source ∉ d.ids) :
    g.edit (.addEdge e) = .error (.missingNode e.source) :=
  edit_eq_error_iff.mpr (by simp [PlainGraph.refusal?, h.contains_eq, hsource])

theorem addEdge_of_target_absent (h : g.Realizes d) (hsource : e.source ∈ d.ids)
    (htarget : e.target ∉ d.ids) : g.edit (.addEdge e) = .error (.missingNode e.target) :=
  edit_eq_error_iff.mpr (by simp [PlainGraph.refusal?, h.contains_eq, hsource, htarget])

end Realizes

/-! Many edits. -/

/-- The edits one after the other, up to the first that fails. -/
def applyAll : List Edit → Graph → Except GraphError Graph
  | [], g => .ok g
  | edit :: edits, g => do
    let (g, _) ← g.edit edit
    applyAll edits g

theorem applyAll_append (edits more : List Edit) (g : Graph) :
    applyAll (edits ++ more) g = applyAll edits g >>= applyAll more := by
  induction edits generalizing g with
  | nil => rfl
  | cons edit edits ih =>
    rw [List.cons_append, applyAll, applyAll]
    cases g.edit edit with
    | error err => rfl
    | ok edited => exact ih edited.1

/-- Where no edit fails, it is a run. -/
theorem run_of_applyAll {edits : List Edit} (h : applyAll edits g = .ok g') : run edits g = g' := by
  induction edits generalizing g with
  | nil => exact Except.ok.inj h
  | cons edit edits ih =>
    rw [applyAll] at h
    cases hedit : g.edit edit with
    | error err =>
      rw [hedit] at h
      cases h
    | ok edited =>
      rw [hedit] at h
      rw [run, step_of_edit_ok hedit]
      exact ih h

theorem addNodes_eq (nodes : List LabelledNode) (g : Graph) :
    addNodes nodes g = applyAll (nodes.map LabelledNode.edit) g := by
  induction nodes generalizing g with
  | nil => rfl
  | cons node nodes ih =>
    rw [addNodes, List.map_cons, applyAll]
    simp only [ih]
    rfl

theorem addEdges_eq (edges : List Edge) (g : Graph) :
    addEdges edges g = applyAll (edges.map .addEdge) g := by
  induction edges generalizing g with
  | nil => rfl
  | cons e edges ih =>
    rw [addEdges, List.map_cons, applyAll]
    simp only [ih]

theorem ofDocument_eq (d : Document) : ofDocument d = applyAll d.edits empty := by
  rw [ofDocument, Document.edits, applyAll_append, addNodes_eq]
  simp only [addEdges_eq]

theorem applyAll_nodes {nodes : List LabelledNode} (h : g.Realizes d)
    (hnodup : ((d.nodes ++ nodes).map LabelledNode.id).Nodup) :
    ∃ g', applyAll (nodes.map LabelledNode.edit) g = .ok g' ∧
      g'.Realizes { d with nodes := d.nodes ++ nodes } := by
  induction nodes generalizing g d with
  | nil => exact ⟨g, rfl, by simpa using h⟩
  | cons node nodes ih =>
    have hid : node.id ∉ d.ids := by
      rw [List.map_append, List.nodup_append] at hnodup
      exact fun hmem => hnodup.2.2 _ hmem _ List.mem_cons_self rfl
    obtain ⟨g₁, c, hfirst, h₁⟩ := h.addNode hid
    rw [List.append_cons] at hnodup ⊢
    obtain ⟨g', hrest, h'⟩ := ih h₁ hnodup
    refine ⟨g', ?_, h'⟩
    rw [List.map_cons, applyAll, hfirst]
    exact hrest

theorem applyAll_edges {edges : List Edge} (h : g.Realizes d) (hjoins : ∀ e ∈ edges, d.Joins e) :
    ∃ g', applyAll (edges.map .addEdge) g = .ok g' ∧
      g'.Realizes { d with edges := d.edges ++ edges } := by
  induction edges generalizing g d with
  | nil => exact ⟨g, rfl, by simpa using h⟩
  | cons e edges ih =>
    obtain ⟨he, hjoins⟩ := List.forall_mem_cons.mp hjoins
    obtain ⟨g₁, c, hfirst, h₁⟩ := h.addEdge he
    obtain ⟨g', hrest, h'⟩ := ih h₁ hjoins
    rw [List.append_assoc] at h'
    refine ⟨g', ?_, h'⟩
    rw [List.map_cons, applyAll, hfirst]
    exact hrest

/-! Whole documents. -/

theorem ofDocument_of_consistent (hd : d.Consistent) :
    ∃ g, ofDocument d = .ok g ∧ g.Realizes d := by
  obtain ⟨g₁, hnodes, h₁⟩ := applyAll_nodes realizes_empty hd.nodup_ids
  obtain ⟨g, hedges, h⟩ := applyAll_edges h₁ hd.joins
  refine ⟨g, ?_, h⟩
  rw [ofDocument_eq, Document.edits, applyAll_append, hnodes]
  exact hedges

/-- A document is loaded up to an edit that is refused after a consistent part of it. -/
theorem ofDocument_of_refused {part : Document} {rest : List Edit} (hpart : part.Consistent)
    (hsplit : d.edits = part.edits ++ edit :: rest)
    (hrefused : ∀ g : Graph, g.Realizes part → g.edit edit = .error err) :
    ofDocument d = .error err := by
  obtain ⟨g, hg, h⟩ := ofDocument_of_consistent hpart
  rw [ofDocument_eq] at hg
  rw [ofDocument_eq, hsplit, applyAll_append, hg]
  show applyAll (edit :: rest) g = _
  rw [applyAll, hrefused g h]
  rfl

theorem edits_eq_of_edges {before after : List Edge} (h : d.edges = before ++ e :: after) :
    d.edits = ({ d with edges := before } : Document).edits ++
      .addEdge e :: after.map .addEdge := by
  simp [Document.edits, h]

theorem ofDocument_of_fault (hd : d.Fault err) : ofDocument d = .error err := by
  cases hd with
  | @repeated before after id hsplit hnodup hid =>
    obtain ⟨nodes, rest, hnodes, rfl, hrest⟩ := List.map_eq_append_iff.mp hsplit
    obtain ⟨node, after', rfl, rfl, -⟩ := List.map_eq_cons_iff.mp hrest
    have hpart : Document.Consistent ⟨nodes, []⟩ := ⟨hnodup, by simp⟩
    have hedits : d.edits = (⟨nodes, []⟩ : Document).edits ++
        node.edit :: (after'.map LabelledNode.edit ++ d.edges.map .addEdge) := by
      simp [Document.edits, hnodes]
    exact ofDocument_of_refused hpart hedits fun g h => h.addNode_of_mem hid
  | @source before after e hnodup hsplit hjoins habsent =>
    have hpart : Document.Consistent { d with edges := before } := ⟨hnodup, hjoins⟩
    exact ofDocument_of_refused hpart (edits_eq_of_edges hsplit) fun g h =>
      h.addEdge_of_source_absent habsent
  | @target before after e hnodup hsplit hjoins hpresent habsent =>
    have hpart : Document.Consistent { d with edges := before } := ⟨hnodup, hjoins⟩
    exact ofDocument_of_refused hpart (edits_eq_of_edges hsplit) fun g h =>
      h.addEdge_of_target_absent hpresent habsent

theorem exists_ofDocument_eq_ok_iff : (∃ g, ofDocument d = .ok g) ↔ d.Consistent := by
  constructor
  · intro h
    obtain ⟨g, hg⟩ := h
    rcases d.consistent_or_fault with hd | ⟨err, hd⟩
    · exact hd
    · rw [ofDocument_of_fault hd] at hg
      cases hg
  · intro hd
    obtain ⟨g, hg, -⟩ := ofDocument_of_consistent hd
    exact ⟨g, hg⟩

theorem ofDocument_eq_error_iff : ofDocument d = .error err ↔ d.Fault err := by
  constructor
  · intro h
    rcases d.consistent_or_fault with hd | ⟨err', hd⟩
    · obtain ⟨g, hg, -⟩ := ofDocument_of_consistent hd
      rw [hg] at h
      cases h
    · rw [ofDocument_of_fault hd] at h
      rwa [← Except.error.inj h]
  · exact ofDocument_of_fault

theorem realizes_of_ofDocument (h : ofDocument d = .ok g) : g.Realizes d := by
  obtain ⟨g', hg', hrealizes⟩ := ofDocument_of_consistent (exists_ofDocument_eq_ok_iff.mp ⟨g, h⟩)
  rw [h] at hg'
  rwa [Except.ok.inj hg']

/-! Documents written. -/

theorem mem_nodes_toDocument (g : Graph) (node : LabelledNode) :
    node ∈ g.toDocument.nodes ↔ g.class? node.id = some node.className := by
  rw [toDocument, List.mem_map]
  constructor
  · intro h
    obtain ⟨⟨id, name⟩, hnode, rfl⟩ := h
    exact SortedMap.mem_toList_iff.mp hnode
  · intro h
    exact ⟨(node.id, node.className), SortedMap.mem_toList_iff.mpr h, rfl⟩

theorem realizes_toDocument (hg : g.Mirrored) (hc : g.Counted) : g.Realizes g.toDocument where
  mirrored := hg
  counted := hc
  class?_eq_some_iff id name := (g.mem_nodes_toDocument ⟨id, name⟩).symm
  mem_edges_iff _ := Iff.rfl

theorem consistent_toDocument (hg : g.Mirrored) (hc : g.Counted) : g.toDocument.Consistent where
  nodup_ids := by
    have hids : g.toDocument.ids = g.classes.keys := by
      rw [Document.ids, toDocument, List.map_map]
      rfl
    rw [hids]
    exact g.classes.increasing_keys.imp fun hlt heq => by simp [heq] at hlt
  joins e he := by
    have h := realizes_toDocument hg hc
    exact ⟨h.containsNode_iff.mp (hg.containsNode_source he),
      h.containsNode_iff.mp (hg.containsNode_target he)⟩

/-- What is written for a graph is loaded as that graph. -/
theorem ofDocument_toDocument (hg : g.Mirrored) (hc : g.Counted) :
    ofDocument g.toDocument = .ok g := by
  obtain ⟨g', hg', h'⟩ := ofDocument_of_consistent (consistent_toDocument hg hc)
  rw [hg', h'.eq (realizes_toDocument hg hc)]

theorem toDocument_eq_sorted (h : g.Realizes d) (hnodup : d.ids.Nodup) :
    g.toDocument = d.sorted := by
  have hnodes : g.toDocument.nodes = d.sorted.nodes := by
    have hentries : g.nodes = d.sorted.nodes.map fun node => (node.id, node.className) := by
      refine SortedMap.entries_ext g.classes.increasing ?_ fun entry => ?_
      · rw [Increasing, List.pairwise_map]
        exact increasing_mergeSort LabelledNode.id hnodup
      · have hmem : entry ∈ g.nodes ↔ ⟨entry.1, entry.2⟩ ∈ d.nodes :=
          SortedMap.mem_toList_iff.trans (h.class?_eq_some_iff entry.1 entry.2)
        rw [hmem, List.mem_map, Document.sorted]
        simp only [List.mem_mergeSort]
        constructor
        · exact fun hnode => ⟨_, hnode, rfl⟩
        · intro hnode
          obtain ⟨node, hnode, rfl⟩ := hnode
          exact hnode
    rw [toDocument, hentries, List.map_map]
    exact List.map_id _
  have hedges : g.toDocument.edges = d.sorted.edges := by
    refine (SortedSet.eq_toList (s := g.plain.edges) ?_ fun e => ?_).symm
    · exact increasing_mergeSort id (by simpa using List.nodup_dedup d.edges)
    · rw [Document.sorted, List.mem_mergeSort, List.mem_dedup, mem_plain_edges, h.mem_edges_iff]
  calc
    g.toDocument = ⟨g.toDocument.nodes, g.toDocument.edges⟩ := rfl
    _ = d.sorted := by rw [hnodes, hedges]

/-! Graphs as runs leave them. -/

theorem mirrored_run_empty (edits : List Edit) : (run edits empty).Mirrored :=
  mirrored_run edits mirrored_empty

theorem counted_run_empty (edits : List Edit) : (run edits empty).Counted :=
  counted_run mirrored_empty rfl edits

/-- A document is loaded exactly if it is consistent, its first fault is the error otherwise, and
what is loaded and written again is the document in order. Graphs hang on their classes and their
edges alone, whatever edits led to them, and are loaded from what is written for them. -/
theorem ofDocument_faithful :
    (∀ d, (∃ g, ofDocument d = .ok g) ↔ d.Consistent) ∧
    (∀ d err, ofDocument d = .error err ↔ d.Fault err) ∧
    (∀ d g, ofDocument d = .ok g →
      (∀ id name, g.class? id = some name ↔ ⟨id, name⟩ ∈ d.nodes) ∧
      (∀ e, e ∈ g.edges ↔ e ∈ d.edges) ∧
      g.toDocument = d.sorted ∧
      run d.edits empty = g ∧
      ∀ d', d'.nodes.Perm d.nodes → (∀ e, e ∈ d'.edges ↔ e ∈ d.edges) → ofDocument d' = .ok g) ∧
    (∀ edits, ofDocument (run edits empty).toDocument = .ok (run edits empty)) ∧
    ∀ edits edits', (∀ id, (run edits empty).class? id = (run edits' empty).class? id) →
      (∀ e, e ∈ (run edits empty).edges ↔ e ∈ (run edits' empty).edges) →
        run edits empty = run edits' empty := by
  refine ⟨fun d => exists_ofDocument_eq_ok_iff, fun d err => ofDocument_eq_error_iff,
    fun d g h => ?_, fun edits => ?_, fun edits edits' hclass hedges => ?_⟩
  · have hrealizes := realizes_of_ofDocument h
    have hd := exists_ofDocument_eq_ok_iff.mp ⟨g, h⟩
    refine ⟨hrealizes.class?_eq_some_iff, hrealizes.mem_edges_iff,
      toDocument_eq_sorted hrealizes hd.nodup_ids, run_of_applyAll (ofDocument_eq d ▸ h),
      fun d' hnodes hedges => ?_⟩
    have hids : d'.ids.Perm d.ids := hnodes.map LabelledNode.id
    have hd' : d'.Consistent := by
      refine ⟨hids.nodup_iff.mpr hd.nodup_ids, fun e he => ?_⟩
      have hjoins := hd.joins e ((hedges e).mp he)
      exact ⟨hids.mem_iff.mpr hjoins.1, hids.mem_iff.mpr hjoins.2⟩
    obtain ⟨g', hg', h'⟩ := ofDocument_of_consistent hd'
    rw [hg', h'.eq (hrealizes.of_mem_iff (fun _ => hnodes.mem_iff) hedges)]
  · exact ofDocument_toDocument (mirrored_run_empty edits) (counted_run_empty edits)
  · exact eq_of_class?_of_edges (mirrored_run_empty edits) (counted_run_empty edits)
      (mirrored_run_empty edits') (counted_run_empty edits') hclass hedges

def wardDocument : Document where
  nodes := [⟨7, "bed"⟩, ⟨3, "room"⟩, ⟨5, "bed"⟩]
  edges := [⟨7, 3⟩, ⟨5, 3⟩, ⟨7, 3⟩, ⟨3, 3⟩]

/-- Other orders of the same document, two documents with two faults, and two histories. -/
theorem ofDocument_faithful_ward :
    (∃ g, ofDocument wardDocument = .ok g ∧
      g.toDocument = wardDocument.sorted ∧
      wardDocument.sorted = ⟨[⟨3, "room"⟩, ⟨5, "bed"⟩, ⟨7, "bed"⟩], [⟨3, 3⟩, ⟨5, 3⟩, ⟨7, 3⟩]⟩ ∧
      ofDocument ⟨wardDocument.nodes.reverse, wardDocument.edges.reverse⟩ = .ok g) ∧
    ofDocument { wardDocument with edges := [⟨7, 3⟩, ⟨5, 9⟩, ⟨8, 3⟩] } = .error (.missingNode 9) ∧
    ofDocument ⟨⟨5, "room"⟩ :: wardDocument.nodes, [⟨8, 9⟩]⟩ = .error (.duplicateNode 5) ∧
    run [.addNode 1 "bed", .addNode 2 "bed", .addEdge ⟨1, 2⟩, .removeNode 2] empty =
      run [.addNode 1 "room", .setClass 1 "bed"] empty := by
  obtain ⟨hok, hfault, hloaded, -, hhistory⟩ := ofDocument_faithful
  refine ⟨?loaded, ?missing, ?repeated, ?history⟩
  case loaded =>
    obtain ⟨g, hg⟩ := (hok wardDocument).mpr (by decide)
    obtain ⟨-, -, hsorted, -, hsame⟩ := hloaded _ g hg
    have hwritten : (ofDocument wardDocument).map toDocument =
        .ok ⟨[⟨3, "room"⟩, ⟨5, "bed"⟩, ⟨7, "bed"⟩], [⟨3, 3⟩, ⟨5, 3⟩, ⟨7, 3⟩]⟩ := rfl
    rw [hg] at hwritten
    exact ⟨g, hg, hsorted, hsorted.symm.trans (Except.ok.inj hwritten),
      hsame _ (List.reverse_perm _) fun e => List.mem_reverse⟩
  case missing =>
    have hsplit : [⟨7, 3⟩, ⟨5, 9⟩, ⟨8, 3⟩] = [⟨7, 3⟩] ++ (⟨5, 9⟩ : Edge) :: [⟨8, 3⟩] := rfl
    have hfirst : Document.Fault { wardDocument with edges := [⟨7, 3⟩, ⟨5, 9⟩, ⟨8, 3⟩] }
        (.missingNode (⟨5, 9⟩ : Edge).target) :=
      .target (by decide) hsplit (by decide) (by decide) (by decide)
    exact (hfault _ _).mpr hfirst
  case repeated =>
    have hsplit : [5, 7, 3, 5] = [5, 7, 3] ++ (5 : NodeId) :: [] := rfl
    exact (hfault _ _).mpr (.repeated hsplit (by decide) (by decide))
  case history =>
    have hclasses : (run [.addNode 1 "bed", .addNode 2 "bed", .addEdge ⟨1, 2⟩, .removeNode 2]
        empty).classes = (run [.addNode 1 "room", .setClass 1 "bed"] empty).classes := rfl
    refine hhistory _ _ (fun id => ?_) fun e => ?_
    · exact congrArg (fun classes => classes.get? id) hclasses
    · exact iff_of_false List.not_mem_nil List.not_mem_nil

end Graph

end AttachmentGrammar
