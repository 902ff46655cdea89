import AttachmentGrammar.Proofs.Graph.Count
/-!
Graphs said plainly, as the classes of the nodes and the set of the edges. Main statement: an edit
of a graph succeeds, fails and acts as on this pair, at every point of every run, and the rows and
the count that a graph keeps beside the pair always agree with it.
-/
namespace AttachmentGrammar

structure PlainGraph where
  classes : SortedMap NodeId String
  edges : SortedSet Edge
  deriving DecidableEq

namespace PlainGraph

def empty : PlainGraph := ⟨.empty, .empty⟩

def dropEdgesAt (edges : SortedSet Edge) (id : NodeId) : SortedSet Edge :=
  ⟨edges.toList.filter fun e => e.source ≠ id ∧ e.target ≠ id, edges.increasing.filter _⟩

/-- What an edit needs and does not find. -/
def refusal? (p : PlainGraph) : Edit → Option GraphError
  | .addNode id _ => if p.classes.contains id then some (.duplicateNode id) else none
  | .setClass id _ | .removeNode id =>
    if p.classes.contains id then none else some (.missingNode id)
  | .addEdge e =>
    if !p.classes.contains e.source then some (.missingNode e.source)
    else if !p.classes.contains e.target then some (.missingNode e.target)
    else none
  | .removeEdge e => if e ∈ p.edges then none else some (.missingEdge e)

def after (p : PlainGraph) : Edit → PlainGraph
  | .addNode id name | .setClass id name => { p with classes := p.classes.insert id name }
  | .removeNode id => ⟨p.classes.erase id, dropEdgesAt p.edges id⟩
  | .addEdge e => { p with edges := p.edges.insert e }
  | .removeEdge e => { p with edges := p.edges.erase e }

def edit (p : PlainGraph) (e : Edit) : Except GraphError PlainGraph :=
  match p.refusal? e with
  | some err => .error err
  | none => .ok (p.after e)

def step (p : PlainGraph) (e : Edit) : PlainGraph :=
  match p.edit e with
  | .ok p' => p'
  | .error _ => p

def run : List Edit → PlainGraph → PlainGraph
  | [], p => p
  | e :: edits, p => run edits (p.step e)

theorem mem_dropEdgesAt {edges : SortedSet Edge} {id : NodeId} {e : Edge} :
    e ∈ dropEdgesAt edges id ↔ e ∈ edges ∧ e.source ≠ id ∧ e.target ≠ id := by
  show e ∈ edges.toList.filter _ ↔ _
  rw [List.mem_filter, decide_eq_true_eq]
  exact Iff.rfl

end PlainGraph

namespace Graph

variable {g g' : Graph} {c : Changes} {edit : Edit}

def plain (g : Graph) : PlainGraph := ⟨g.classes, g.edges, g.edges_increasing⟩

theorem mem_plain_edges {e : Edge} : e ∈ g.plain.edges ↔ e ∈ g.edges := Iff.rfl

/-! One edit. -/

/-- An edit fails exactly if the plain graph lacks what it needs, or has what it adds. -/
theorem edit_eq_error_iff {err : GraphError} :
    g.edit edit = .error err ↔ g.plain.refusal? edit = some err := by
  rw [edit_eq_error]
  cases edit with
  | addNode id name =>
    cases hid : g.classes.contains id <;>
      simp [perform, addNode, PlainGraph.refusal?, plain, containsNode, hid]
  | setClass id name =>
    cases hid : g.classes.contains id <;>
      simp [perform, setClass, withNode, PlainGraph.refusal?, plain, containsNode, hid]
  | removeNode id =>
    cases hid : g.classes.contains id <;>
      simp [perform, removeNode, withNode, PlainGraph.refusal?, plain, containsNode, hid]
  | addEdge e =>
    cases hs : g.classes.contains e.source <;> cases ht : g.classes.contains e.target <;>
      cases he : g.containsEdge e <;>
      simp [perform, addEdge, withNode, PlainGraph.refusal?, plain, containsNode, hs, ht, he]
  | removeEdge e =>
    simp only [perform, removeEdge, PlainGraph.refusal?, mem_plain_edges, ← containsEdge_iff]
    cases he : g.containsEdge e <;> simp

theorem get?_classes_after (x : NodeId) :
    (g.plain.after edit).classes.get? x = edit.classAfter g x := by
  cases edit with
  | addNode id name => exact SortedMap.get?_insert_eq _ _ _ _
  | setClass id name => exact SortedMap.get?_insert_eq _ _ _ _
  | removeNode id => exact SortedMap.get?_erase_eq _ _ _
  | addEdge e => rfl
  | removeEdge e => rfl

theorem mem_edges_after (x : Edge) : x ∈ (g.plain.after edit).edges ↔ edit.EdgeAfter g x := by
  cases edit with
  | addNode id name => exact Iff.rfl
  | setClass id name => exact Iff.rfl
  | removeNode id => exact PlainGraph.mem_dropEdgesAt
  | addEdge e => exact SortedSet.mem_insert
  | removeEdge e => exact SortedSet.mem_erase

theorem plain_of_edit (hg : g.Mirrored) (h : g.edit edit = .ok (g', c)) :
    g'.plain = g.plain.after edit := by
  have hclasses : g'.plain.classes = (g.plain.after edit).classes := by
    apply SortedMap.ext_get?
    intro x
    rw [get?_classes_after]
    exact class?_of_edit h x
  have hedges : g'.plain.edges = (g.plain.after edit).edges := by
    apply SortedSet.ext
    intro x
    rw [mem_plain_edges, mem_edges_of_edit hg h, mem_edges_after]
  calc
    g'.plain = ⟨g'.plain.classes, g'.plain.edges⟩ := rfl
    _ = g.plain.after edit := by rw [hclasses, hedges]

/-- The pair says all about an edit: whether it fails, why, and what it leaves. -/
theorem plain_edit (hg : g.Mirrored) (edit : Edit) :
    (g.edit edit).map (fun edited => edited.1.plain) = g.plain.edit edit := by
  cases h : g.edit edit with
  | error err =>
    rw [PlainGraph.edit, edit_eq_error_iff.mp h]
    rfl
  | ok edited =>
    obtain ⟨g', c⟩ := edited
    have hnone : g.plain.refusal? edit = none := by
      cases hr : g.plain.refusal? edit with
      | none => rfl
      | some err =>
        rw [edit_eq_error_iff.mpr hr] at h
        cases h
    rw [PlainGraph.edit, hnone]
    exact congrArg Except.ok (plain_of_edit hg h)

theorem plain_step (hg : g.Mirrored) (edit : Edit) : (g.step edit).plain = g.plain.step edit := by
  rw [PlainGraph.step, ← plain_edit hg]
  cases h : g.edit edit with
  | error err => rw [step_of_edit_error h]; rfl
  | ok edited => rw [step_of_edit_ok h]; rfl

/-! Whole runs. -/

/-- The rows and the count agree with the classes and the edges. -/
structure Consistent (g : Graph) : Prop where
  keys_outgoing : g.outgoing.keys = g.classes.keys
  keys_incoming : g.incoming.keys = g.classes.keys
  holds_iff : ∀ s t, Rows.Holds g.outgoing s t ↔ Rows.Holds g.incoming t s
  ends : ∀ e ∈ g.edges, g.containsNode e.source = true ∧ g.containsNode e.target = true
  edgeCount_eq : g.edgeCount = g.edges.length

theorem consistent_of_counted (hg : g.Mirrored) (hc : g.Counted) : g.Consistent where
  keys_outgoing := SortedMap.keys_eq hg.outgoing_isSome
  keys_incoming := SortedMap.keys_eq hg.incoming_isSome
  holds_iff _ _ := by rw [holds_outgoing, hg.holds_incoming]
  ends _ he := ⟨hg.containsNode_source he, hg.containsNode_target he⟩
  edgeCount_eq := hc

theorem counted_step (hg : g.Mirrored) (hc : g.Counted) (edit : Edit) : (g.step edit).Counted := by
  cases h : g.edit edit with
  | error err => exact (step_of_edit_error h).symm ▸ hc
  | ok edited => exact (step_of_edit_ok h).symm ▸ counted_of_edit hg hc h

theorem counted_run (hg : g.Mirrored) (hc : g.Counted) (edits : List Edit) :
    (run edits g).Counted := by
  induction edits generalizing g with
  | nil => exact hc
  | cons edit edits ih => exact ih (mirrored_step hg edit) (counted_step hg hc edit)

theorem plain_run (hg : g.Mirrored) (edits : List Edit) :
    (run edits g).plain = PlainGraph.run edits g.plain := by
  induction edits generalizing g with
  | nil => rfl
  | cons edit edits ih => rw [run, PlainGraph.run, ih (mirrored_step hg edit), plain_step hg]

/-- After any run a graph is what its classes and edges say, and so is what any edit does to it
next; an edit that fails or adds an edge that is there changes nothing. -/
theorem run_refines_plain (edits : List Edit) :
    let g := run edits empty
    g.Consistent ∧ g.plain = PlainGraph.run edits .empty ∧
      ∀ edit : Edit,
        (g.edit edit).map (fun edited => edited.1.plain) = g.plain.edit edit ∧
        edit.CountsDown g ∧
        (∀ err, g.edit edit = .error err → g.step edit = g) ∧
        ∀ e ∈ g.edges, edit = .addEdge e → g.step edit = g := by
  intro g
  have hg : g.Mirrored := mirrored_run edits mirrored_empty
  have hc : g.Counted := counted_run mirrored_empty rfl edits
  refine ⟨consistent_of_counted hg hc, plain_run mirrored_empty edits, fun edit => ?_⟩
  refine ⟨plain_edit hg edit, countsDown_edit hg hc edit, fun err h => step_of_edit_error h, ?_⟩
  rintro e he rfl
  have hok : g.edit (.addEdge e) = .ok (g, .empty) := by
    refine addEdge_eq_ok.mpr ⟨hg.containsNode_source he, hg.containsNode_target he, .inl ?_⟩
    exact ⟨containsEdge_iff.mpr he, rfl, rfl⟩
  exact step_of_edit_ok hok

end Graph

end AttachmentGrammar
