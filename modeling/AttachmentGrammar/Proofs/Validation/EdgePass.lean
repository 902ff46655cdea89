import AttachmentGrammar.Proofs.Graph.Mirror
import AttachmentGrammar.Proofs.Validation.Tally
/-!
Two ways to count. Main statements: one pass over all edges counts for a node the edges that leave
it and those that lead to it; where the rows of a graph mirror each other, that is what the two rows
of the node give.
-/
namespace AttachmentGrammar

namespace Graph

theorem targets_eq (g : Graph) (id : NodeId) :
    (g.edges.filter fun e => e.source = id).map Edge.target = g.targets id := by
  rw [edges, SortedMap.filter_flatMap_toList]
  · cases h : g.outgoing.get? id <;> simp [targets, h, SortedSet.empty, Function.comp_def]
  · intro entry _ e he
    obtain ⟨t, -, rfl⟩ := List.mem_map.mp he
    rfl

/-- The sources of the edges to a node. -/
def origins (g : Graph) (id : NodeId) : List NodeId :=
  (g.edges.filter fun e => e.target = id).map Edge.source

theorem Mirrored.sources_eq {g : Graph} (hg : g.Mirrored) (id : NodeId) :
    g.origins id = g.sources id := by
  apply SortedSet.eq_toList
  · rw [origins, List.pairwise_map]
    have hfilter := g.edges_increasing.filter fun e => e.target = id
    refine hfilter.imp_of_mem fun {a b} ha hb hlt => ?_
    have hta := of_decide_eq_true (List.mem_filter.mp ha).2
    have htb := of_decide_eq_true (List.mem_filter.mp hb).2
    rcases Edge.compare_eq_lt.mp hlt with hs | ⟨-, ht⟩
    · exact hs
    · rw [hta, htb, Std.compare_self] at ht
      cases ht
  · intro s
    refine Iff.trans ?_ hg.mem_sources_iff_edges.symm
    simp only [origins, List.mem_map, List.mem_filter, decide_eq_true_eq]
    constructor
    · intro h
      obtain ⟨e, ⟨he, rfl⟩, rfl⟩ := h
      exact he
    · exact fun he => ⟨_, ⟨he, rfl⟩, rfl⟩

end Graph

namespace Tally

/-- Counts one edge for the node `id`; a loop is counted on both sides. -/
def addEdge (classOf : NodeId → Option ClassId) (id : NodeId) (c : Tally) (e : Edge) : Tally :=
  let c := if e.source = id then c.addOutgoing (classOf e.target) else c
  if e.target = id then c.addIncoming (classOf e.source) else c

theorem foldl_addOutgoing_addIncoming (targets : List (Option ClassId)) (c : Tally)
    (source : Option ClassId) : targets.foldl addOutgoing (c.addIncoming source) =
      (targets.foldl addOutgoing c).addIncoming source := by
  induction targets generalizing c with
  | nil => rfl
  | cons target targets ih => exact ih (c.addOutgoing target)

/-- The two sides of a node are counted independently. -/
theorem foldl_addEdge (classOf : NodeId → Option ClassId) (id : NodeId) (edges : List Edge)
    (c : Tally) : edges.foldl (addEdge classOf id) c =
      ((edges.filter fun e => e.target = id).map fun e => classOf e.source).foldl addIncoming
        (((edges.filter fun e => e.source = id).map fun e => classOf e.target).foldl
          addOutgoing c) := by
  induction edges generalizing c with
  | nil => rfl
  | cons e edges ih =>
    rw [List.foldl_cons, ih]
    by_cases hs : e.source = id <;> by_cases ht : e.target = id <;>
      simp [addEdge, hs, ht, foldl_addOutgoing_addIncoming]

end Tally

namespace Grammar

variable {g : Grammar} {graph : Graph}

theorem get?_countEdge (classIds : SortedMap NodeId (Option ClassId))
    (counts : SortedMap NodeId Tally) (e : Edge) (id : NodeId) :
    (countEdge classIds counts e).get? id =
      (counts.get? id).map fun c => c.addEdge (fun x => (classIds.get? x).join) id e := by
  rw [countEdge, SortedMap.get?_modify_eq, SortedMap.get?_modify_eq, SortedMap.get?_modify_eq]
  by_cases hs : e.source = id <;> by_cases ht : e.target = id
  · subst hs
    simp [Tally.addEdge, ht, Function.comp_def]
  · subst hs
    simp [Tally.addEdge, ht, Ne.symm ht]
  · subst ht
    simp [Tally.addEdge, hs, Ne.symm hs]
  · simp [Tally.addEdge, hs, ht, Ne.symm hs, Ne.symm ht]

theorem get?_foldl_countEdge (classIds : SortedMap NodeId (Option ClassId)) (edges : List Edge)
    (counts : SortedMap NodeId Tally) (id : NodeId) :
    (edges.foldl (countEdge classIds) counts).get? id = (counts.get? id).map fun c =>
      edges.foldl (Tally.addEdge (fun x => (classIds.get? x).join) id) c := by
  induction edges generalizing counts with
  | nil => simp
  | cons e edges ih =>
    rw [List.foldl_cons, ih, get?_countEdge, Option.map_map]
    rfl

theorem join_classIds (x : NodeId) :
    ((graph.classes.mapValues g.classId?).get? x).join = g.classAt? graph x := by
  rw [SortedMap.get?_mapValues, classAt?, Graph.class?]
  cases graph.classes.get? x <;> rfl

theorem countsAt_eq (id : NodeId) : g.countsAt graph id =
    .ofClasses ((graph.targets id).map (g.classAt? graph))
      ((graph.sources id).map (g.classAt? graph)) := by
  rw [countsAt, ← Tally.foldl_addIncoming_foldl_addOutgoing, List.foldl_map, List.foldl_map]

/-- What the edges of a graph give for a node. -/
def tallyAt (g : Grammar) (graph : Graph) (id : NodeId) : Tally :=
  .ofClasses ((graph.targets id).map (g.classAt? graph)) ((graph.origins id).map (g.classAt? graph))

theorem tallyAt_eq_countsAt (hg : graph.Mirrored) (id : NodeId) :
    g.tallyAt graph id = g.countsAt graph id := by
  rw [countsAt_eq, tallyAt, hg.sources_eq]

/-- One pass over all edges counts for every node what its edges give. -/
theorem get?_edgePass (id : NodeId) :
    (g.edgePass graph).get? id = (graph.class? id).map fun _ => g.tallyAt graph id := by
  rw [edgePass, get?_foldl_countEdge, SortedMap.get?_mapValues, Option.map_map]
  refine congrArg (Option.map · (graph.class? id)) (funext fun name => ?_)
  rw [Function.comp_apply, Tally.foldl_addEdge, tallyAt, ← graph.targets_eq id, Graph.origins,
    ← Tally.foldl_addIncoming_foldl_addOutgoing]
  simp only [join_classIds, List.map_map, Function.comp_def]

end Grammar

end AttachmentGrammar
