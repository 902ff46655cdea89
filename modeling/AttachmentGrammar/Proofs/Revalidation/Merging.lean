import AttachmentGrammar.Grammar.Compile
import AttachmentGrammar.Proofs.Graph.Effect
import AttachmentGrammar.Proofs.Revalidation.Canonical
/-!
Updates with several change sets. Main statement: in one graph their order does not matter, nor
whether they come merged or again; and once the report is that of the graph, no update changes
anything.
-/
namespace AttachmentGrammar

namespace Changes

theorem mem_nodes_merge {c d : Changes} {x : NodeId} :
    x ∈ (c.merge d).nodes ↔ x ∈ c.nodes ∨ x ∈ d.nodes := SortedSet.mem_union

theorem mem_edges_merge {c d : Changes} {e : Edge} :
    e ∈ (c.merge d).edges ↔ e ∈ c.edges ∨ e ∈ d.edges := SortedSet.mem_union

theorem merge_comm (c d : Changes) : c.merge d = d.merge c :=
  congrArg₂ mk (SortedSet.ext fun x => by simp only [SortedSet.mem_union, or_comm])
    (SortedSet.ext fun e => by simp only [SortedSet.mem_union, or_comm])

theorem merge_self (c : Changes) : c.merge c = c :=
  congrArg₂ mk (SortedSet.ext fun x => by simp only [SortedSet.mem_union, or_self])
    (SortedSet.ext fun e => by simp only [SortedSet.mem_union, or_self])

end Changes

namespace Findings

variable (g : Grammar) (graph : Graph) (c d : Changes) (f : Findings)

/-- Both times a place that is named is found in the same graph. -/
theorem apply_apply : apply g graph d (apply g graph c f) = apply g graph (c.merge d) f := by
  refine ext_get? (fun e => ?_) fun id => ?_
  · simp only [get?_edges_apply, Changes.mem_edges_merge]
    by_cases hc : e ∈ c.edges <;> simp [hc]
  · simp only [get?_nodes_apply, Changes.mem_nodes_merge]
    by_cases hc : id ∈ c.nodes <;> simp [hc]

theorem apply_comm :
    apply g graph d (apply g graph c f) = apply g graph c (apply g graph d f) := by
  rw [apply_apply, apply_apply, Changes.merge_comm]

theorem apply_idem : apply g graph c (apply g graph c f) = apply g graph c f := by
  rw [apply_apply, Changes.merge_self]

variable {g graph}

theorem report_reset (hg : graph.Mirrored) : (reset g graph).report = g.validate graph :=
  report_eq_validate hg (atNode_reset hg) get?_edges_reset

theorem get?_nodes_reset (hg : graph.Mirrored) (id : NodeId) :
    (reset g graph).nodes.get? id = (findAtNode g graph id).held? := by
  have hreset : Reachable g (reset g graph) := .reset graph
  rw [hreset.canonical.get?_nodes, atNode_reset hg]

/-- What an update puts at a place is what a reset holds there. -/
theorem get?_edges_apply_reset (e : Edge) : (apply g graph c f).edges.get? e =
    if e ∈ c.edges then (reset g graph).edges.get? e else f.edges.get? e := by
  rw [get?_edges_apply, get?_edges_reset]

theorem get?_nodes_apply_reset (hg : graph.Mirrored) (id : NodeId) :
    (apply g graph c f).nodes.get? id =
      if id ∈ c.nodes then (reset g graph).nodes.get? id else f.nodes.get? id := by
  rw [get?_nodes_apply, get?_nodes_reset hg]

theorem apply_reset (hg : graph.Mirrored) : apply g graph c (reset g graph) = reset g graph :=
  ext_get? (fun e => by rw [get?_edges_apply_reset, ite_self])
    fun id => by rw [get?_nodes_apply_reset c _ hg, ite_self]

variable {f}

/-- Findings that report what a full report says are those of a reset. -/
theorem Reachable.eq_reset (hf : Reachable g f) (hg : graph.Mirrored)
    (h : f.report = g.validate graph) : f = Findings.reset g graph := by
  have hreset : Reachable g (Findings.reset g graph) := .reset graph
  exact hf.canonical.ext_report hreset.canonical (h.trans (report_reset hg).symm)

/-- Whatever the findings are, two updates in one graph may change places, come as one, and come
twice. An update puts at the places that it names what a reset holds there, and nothing elsewhere;
so where the report is right for the graph it changes nothing. -/
theorem apply_order_free (g : Grammar) :
    (∀ graph c d f,
      apply g graph d (apply g graph c f) = apply g graph c (apply g graph d f) ∧
      apply g graph d (apply g graph c f) = apply g graph (c.merge d) f ∧
      apply g graph c (apply g graph c f) = apply g graph c f) ∧
    ∀ edits c f,
      let graph := Graph.run edits .empty
      (∀ e, (apply g graph c f).edges.get? e =
        if e ∈ c.edges then (reset g graph).edges.get? e else f.edges.get? e) ∧
      (∀ id, (apply g graph c f).nodes.get? id =
        if id ∈ c.nodes then (reset g graph).nodes.get? id else f.nodes.get? id) ∧
      (Reachable g f → f.report = g.validate graph → apply g graph c f = f) := by
  refine ⟨fun graph c d f => ⟨apply_comm g graph c d f, apply_apply g graph c d f,
    apply_idem g graph c f⟩, fun edits c f => ?_⟩
  intro graph
  have hg : graph.Mirrored := Graph.mirrored_run edits Graph.mirrored_empty
  refine ⟨get?_edges_apply_reset c f, get?_nodes_apply_reset c f hg, fun hf h => ?_⟩
  rw [hf.eq_reset hg h, apply_reset c hg]

def knotRules : List Rule :=
  [⟨1, .attachment [⟨⟨"rope"⟩, some (.exactly 1)⟩] [⟨⟨"post"⟩, none⟩]⟩]

def knotEdits : List Edit :=
  [.addNode 1 "rope", .addNode 2 "post", .addNode 3 "cleat", .addEdge ⟨1, 3⟩, .addEdge ⟨2, 1⟩]

/-- The findings of an empty graph, updated at every place of a full one; then an update at places
of which some were never there. -/
theorem apply_order_free_knot : ∃ out, compile knotRules (.ofNames ["rope", "post"]) true = .ok out ∧
    let graph := Graph.run knotEdits .empty
    let f := apply out.grammar graph ⟨.ofList [1, 2, 3], .ofList [⟨1, 3⟩, ⟨2, 1⟩]⟩
      (reset out.grammar .empty)
    Reachable out.grammar f ∧ f.report = out.grammar.validate graph ∧ f.isValid = false ∧
      apply out.grammar graph ⟨.ofList [1, 9], .ofList [⟨2, 1⟩, ⟨7, 8⟩]⟩ f = f := by
  refine ⟨_, rfl, ?_⟩
  intro graph f
  have hf : Reachable _ f := .apply _ _ (.reset _)
  refine ⟨hf, by decide +kernel, by decide +kernel, ?_⟩
  exact ((apply_order_free _).2 knotEdits _ f).2.2 hf (by decide +kernel)

end Findings

end AttachmentGrammar
