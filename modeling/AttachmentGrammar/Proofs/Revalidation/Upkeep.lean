import AttachmentGrammar.Proofs.Graph.Touched
import AttachmentGrammar.Proofs.Revalidation.Findings
/-!
Keeping findings up to date over a whole run of edits and updates. Main statement: at every point of
the run the findings can differ from a full report only at places that an edit has touched and no
update has covered since.
-/
namespace AttachmentGrammar

/-- What is in `c` and not in `d`. -/
def Changes.without (c d : Changes) : Changes where
  nodes := ⟨c.nodes.toList.filter (· ∉ d.nodes), c.nodes.increasing.filter _⟩
  edges := ⟨c.edges.toList.filter (· ∉ d.edges), c.edges.increasing.filter _⟩

/-- A graph under edit with its findings, and the change set that its owner collects. -/
structure Upkeep where
  graph : Graph
  findings : Findings
  pending : Changes
  /-- What edits have touched and no update has covered since. -/
  unapplied : Changes

namespace Upkeep

inductive Action where
  | edit (edit : Edit)
  | touchNode (id : NodeId)
  | touchEdge (e : Edge)
  | hold (c : Changes)
  | apply (c : Changes)
  | applyPending
  | reset

def start (g : Grammar) (graph : Graph) : Upkeep :=
  ⟨graph, .reset g graph, .empty, .empty⟩

def update (g : Grammar) (c : Changes) (u : Upkeep) : Upkeep :=
  { u with findings := u.findings.apply g u.graph c, unapplied := u.unapplied.without c }

def step (g : Grammar) (u : Upkeep) : Action → Upkeep
  | .edit edit =>
    let edited := u.graph.perform edit
    match edited.result with
    | .ok c => { u with graph := edited.graph, unapplied := u.unapplied.merge c }
    | .error _ => { u with graph := edited.graph }
  | .touchNode id => { u with pending := u.pending.touchNode id }
  | .touchEdge e => { u with pending := u.pending.touchEdge e }
  | .hold c => { u with pending := u.pending.merge c }
  | .apply c => u.update g c
  | .applyPending => { u.update g u.pending with pending := .empty }
  | .reset => { u with findings := .reset g u.graph, unapplied := .empty }

def run (g : Grammar) : List Action → Upkeep → Upkeep
  | [], u => u
  | action :: actions, u => run g actions (u.step g action)

end Upkeep

/-! What is found at a place depends on its surroundings only. -/

variable {g : Grammar} {graph graph' : Graph} {c : Changes}

theorem Grammar.countsAt_of_alikeAt {id : NodeId} (h : graph.AlikeAt graph' id) :
    g.countsAt graph' id = g.countsAt graph id := by
  have hclass {ids : List NodeId} (hids : ∀ x ∈ ids, graph'.class? x = graph.class? x) :
      ids.map (g.classAt? graph') = ids.map (g.classAt? graph) :=
    List.map_congr_left fun x hx => by rw [classAt?, classAt?, hids x hx]
  rw [countsAt_eq, countsAt_eq, h.targets_eq, h.sources_eq, hclass h.target_class?_eq,
    hclass h.source_class?_eq]

namespace Findings

theorem findAtNode_of_alikeAt {id : NodeId} (h : graph.AlikeAt graph' id) :
    findAtNode g graph' id = findAtNode g graph id := by
  rw [findAtNode, findAtNode, h.class?_eq, Grammar.countsAt_of_alikeAt h]

theorem findAtEdge?_of_untouched {edit : Edit} (hg : graph.Mirrored)
    (h : graph.edit edit = .ok (graph', c)) {e : Edge} (he : ¬edit.TouchesEdge graph e) :
    findAtEdge? g graph' e = findAtEdge? g graph e := by
  have hsame : graph'.containsEdge e = graph.containsEdge e := by
    rw [Bool.eq_iff_iff, Graph.containsEdge_iff, Graph.containsEdge_iff]
    exact Graph.mem_edges_iff_of_untouched hg h he
  by_cases hm : e ∈ graph.edges
  · obtain ⟨hs, ht⟩ := Graph.class?_ends_of_untouched hg h hm he
    rw [findAtEdge?, findAtEdge?, hsame, Grammar.edgeViolation?, Grammar.edgeViolation?, hs, ht]
  · have habsent : graph.containsEdge e = false :=
      Bool.eq_false_iff.mpr fun hc => hm (Graph.containsEdge_iff.mp hc)
    simp [findAtEdge?, hsame, habsent]

end Findings

namespace Changes

theorem mem_nodes_without {c d : Changes} {x : NodeId} :
    x ∈ (c.without d).nodes ↔ x ∈ c.nodes ∧ x ∉ d.nodes := by
  rw [← SortedSet.mem_toList, without, List.mem_filter, decide_eq_true_eq, SortedSet.mem_toList]

theorem mem_edges_without {c d : Changes} {e : Edge} :
    e ∈ (c.without d).edges ↔ e ∈ c.edges ∧ e ∉ d.edges := by
  rw [← SortedSet.mem_toList, without, List.mem_filter, decide_eq_true_eq, SortedSet.mem_toList]

theorem not_mem_of_isEmpty {c : Changes} (h : c.isEmpty = true) :
    (∀ x, x ∉ c.nodes) ∧ ∀ e, e ∉ c.edges := by
  simp only [isEmpty, SortedSet.isEmpty, Bool.and_eq_true, List.isEmpty_iff] at h
  exact ⟨fun x hx => List.not_mem_nil (h.1 ▸ SortedSet.mem_toList.mpr hx),
    fun e he => List.not_mem_nil (h.2 ▸ SortedSet.mem_toList.mpr he)⟩

end Changes

namespace Upkeep

/-- The findings are right at every place that is not waiting for an update. -/
structure Current (g : Grammar) (u : Upkeep) : Prop where
  mirrored : u.graph.Mirrored
  nodes : ∀ id, id ∉ u.unapplied.nodes →
    Findings.atNode u.findings.nodes id = Findings.findAtNode g u.graph id
  edges : ∀ e, e ∉ u.unapplied.edges →
    u.findings.edges.get? e = Findings.findAtEdge? g u.graph e

theorem current_reset {u : Upkeep} (hg : u.graph.Mirrored) :
    Current g { u with findings := .reset g u.graph, unapplied := .empty } :=
  ⟨hg, fun id _ => Findings.atNode_reset hg id, fun e _ => Findings.get?_edges_reset e⟩

theorem current_start (hg : graph.Mirrored) : Current g (start g graph) :=
  current_reset (u := start g graph) hg

theorem current_update {u : Upkeep} (h : Current g u) (c : Changes) :
    Current g (u.update g c) := by
  refine ⟨h.mirrored, fun id hid => ?_, fun e he => ?_⟩
  · refine (Findings.atNode_apply c u.findings id).trans ?_
    split
    · rfl
    · rename_i hc
      exact h.nodes id fun hu => hid (Changes.mem_nodes_without.mpr ⟨hu, hc⟩)
  · refine (Findings.get?_edges_apply c u.findings e).trans ?_
    split
    · rfl
    · rename_i hc
      exact h.edges e fun hu => he (Changes.mem_edges_without.mpr ⟨hu, hc⟩)

theorem current_edit {u : Upkeep} (h : Current g u) {edit : Edit}
    (hedit : u.graph.edit edit = .ok (graph', c)) :
    Current g { u with graph := graph', unapplied := u.unapplied.merge c } := by
  refine ⟨Graph.mirrored_of_edit h.mirrored hedit, fun id hid => ?_, fun e he => ?_⟩
  · have hnot : id ∉ u.unapplied.nodes ∧ id ∉ c.nodes :=
      not_or.mp fun hm => hid (SortedSet.mem_union.mpr hm)
    have halike : u.graph.AlikeAt graph' id :=
      Graph.alikeAt_of_untouched h.mirrored hedit fun ht =>
        hnot.2 ((Graph.mem_changes_nodes h.mirrored hedit id).mpr ht)
    exact (h.nodes id hnot.1).trans (Findings.findAtNode_of_alikeAt halike).symm
  · have hnot : e ∉ u.unapplied.edges ∧ e ∉ c.edges :=
      not_or.mp fun hm => he (SortedSet.mem_union.mpr hm)
    have hsame : Findings.findAtEdge? g graph' e = Findings.findAtEdge? g u.graph e :=
      Findings.findAtEdge?_of_untouched h.mirrored hedit fun ht =>
        hnot.2 ((Graph.mem_changes_edges h.mirrored hedit e).mpr ht)
    exact (h.edges e hnot.1).trans hsame.symm

theorem current_step {u : Upkeep} (h : Current g u) (action : Action) :
    Current g (u.step g action) := by
  cases action with
  | edit edit =>
    cases hresult : (u.graph.perform edit).result with
    | error _ => simpa only [step, hresult, Graph.graph_perform_of_error hresult] using h
    | ok c =>
      have hedit := Graph.edit_eq_ok.mpr ⟨hresult, rfl⟩
      simpa only [step, hresult] using current_edit h hedit
  | touchNode id => exact ⟨h.mirrored, h.nodes, h.edges⟩
  | touchEdge e => exact ⟨h.mirrored, h.nodes, h.edges⟩
  | hold c => exact ⟨h.mirrored, h.nodes, h.edges⟩
  | apply c => exact current_update h c
  | applyPending =>
    have hu := current_update h u.pending
    exact ⟨hu.mirrored, hu.nodes, hu.edges⟩
  | reset => exact current_reset h.mirrored

theorem current_run {u : Upkeep} (h : Current g u) (actions : List Action) :
    Current g (run g actions u) := by
  induction actions generalizing u with
  | nil => exact h
  | cons action actions ih => exact ih (current_step h action)

/-- Outside what waits for an update the findings are those of a full report, and they are the
whole report once nothing waits. -/
theorem findings_eq_validate (g : Grammar) (edits : List Edit) (actions : List Action) :
    let u := run g actions (start g (Graph.run edits .empty))
    let full := g.validate u.graph
    (∀ id, id ∉ u.unapplied.nodes →
      (Findings.atNode u.findings.nodes id).unknownClass.toList =
        full.unknownClasses.filter (fun v => v.node = id) ∧
      (Findings.atNode u.findings.nodes id).cardinalities =
        full.cardinalities.filter (fun v => v.node = id)) ∧
    (∀ e, e ∉ u.unapplied.edges →
      (u.findings.edges.get? e).toList = full.edges.filter (fun v => v.edge = e)) ∧
    (u.unapplied.isEmpty = true → u.findings.report = full) := by
  intro u full
  have hu : Current g u :=
    current_run (current_start (Graph.mirrored_run edits Graph.mirrored_empty)) actions
  refine ⟨fun id hid => ?_, fun e he => ?_, fun hempty => ?_⟩
  · rw [hu.nodes id hid]
    exact ⟨(Findings.filter_unknownClasses id).symm,
      (Findings.filter_cardinalities hu.mirrored id).symm⟩
  · rw [hu.edges e he]
    exact (Findings.filter_edges e).symm
  · obtain ⟨hnodes, hedges⟩ := Changes.not_mem_of_isEmpty hempty
    exact Findings.report_eq_validate hu.mirrored (fun id => hu.nodes id (hnodes id))
      fun e => hu.edges e (hedges e)

end Upkeep

end AttachmentGrammar
