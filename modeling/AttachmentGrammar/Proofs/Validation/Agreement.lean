import AttachmentGrammar.Grammar.Compile
import AttachmentGrammar.Proofs.Graph.Effect
import AttachmentGrammar.Proofs.Validation.Checks
/-!
The two ways to count, for a graph built by edits. Main statement: the pass over all edges leaves at
every node the tally that its two rows give, and this holds the number of its edges in each
direction, and by class of the other end for exactly the classes that are known and occur there.
-/
namespace AttachmentGrammar

variable {g : Grammar} {graph : Graph} {id : NodeId} {key : Role ClassId} {n : UInt32}

/-- The four fields of a tally by role. -/
def Tally.count? (c : Tally) : Role ClassId → Option UInt32
  | .source => some c.outgoing
  | .target => some c.incoming
  | .sourceOf other => c.outgoingTo.get? other
  | .targetOf other => c.incomingFrom.get? other

theorem Tally.mem_byRole_iff_count? {c : Tally} : (key, n) ∈ c.byRole ↔ c.count? key = some n := by
  cases key <;> simp [byRole, count?, SortedMap.mem_toList_iff, eq_comm]

/-- A tally of all edges at a node. The aggregates are always there, the other roles for the known
classes that some edge has at its other end. -/
def Tally.CountsEdges (c : Tally) (g : Grammar) (graph : Graph) (id : NodeId) : Prop :=
  ∀ key n, c.count? key = some n ↔ ∃ role, key.mapM? g.vocabulary.name? = some role ∧
    (role.isAggregate = true ∨ 0 < graph.attachments id role) ∧
      n.toNat = graph.attachments id role

namespace Grammar

theorem countsEdges_tallyAt (hsmall : ∀ role, graph.attachments id role < UInt32.size) :
    (g.tallyAt graph id).CountsEdges g graph id := by
  intro key n
  rw [← Tally.mem_byRole_iff_count?]
  constructor
  · intro h
    obtain ⟨role, hkey⟩ := known_of_mem_byRole h
    rw [tallyAt, Tally.mem_byRole, amount_eq_attachments hkey, Role.isAggregate_mapM? hkey] at h
    obtain ⟨hchecked, rfl⟩ := h
    exact ⟨role, hkey, hchecked, UInt32.toNat_ofNat_of_lt' (hsmall role)⟩
  · intro h
    obtain ⟨role, hkey, hchecked, hn⟩ := h
    rw [tallyAt, Tally.mem_byRole, amount_eq_attachments hkey, Role.isAggregate_mapM? hkey]
    exact ⟨hchecked, by rw [← hn, UInt32.ofNat_toNat]⟩

/-- Counting in one pass over the edges and counting from the rows of a node agree, as long as the
counts fit. -/
theorem edgePass_eq_countsAt (g : Grammar) (edits : List Edit) (id : NodeId)
    (h : (Graph.run edits .empty).attachments id .source < UInt32.size ∧
      (Graph.run edits .empty).attachments id .target < UInt32.size) :
    (g.edgePass (Graph.run edits .empty)).get? id =
        ((Graph.run edits .empty).class? id).map (fun _ => g.countsAt (Graph.run edits .empty) id) ∧
      (g.countsAt (Graph.run edits .empty) id).CountsEdges g (Graph.run edits .empty) id := by
  have hg : (Graph.run edits .empty).Mirrored := Graph.mirrored_run edits Graph.mirrored_empty
  rw [get?_edgePass, tallyAt_eq_countsAt hg]
  refine ⟨rfl, ?_⟩
  rw [← tallyAt_eq_countsAt hg]
  refine countsEdges_tallyAt fun role => ?_
  rcases Graph.attachments_le (Graph.run edits .empty) id role with hle | hle
  · exact Nat.lt_of_le_of_lt hle h.1
  · exact Nat.lt_of_le_of_lt hle h.2

def weaveRules : List Rule := [
  ⟨1, .attachment [⟨⟨"w*"⟩, none⟩] [⟨⟨"weft"⟩, some (.atMost 2)⟩]⟩]

/-- A loop, an edge back and forth, and a neighbour of an unknown class on both sides. -/
def weaveEdits : List Edit := [
  .addNode 1 "warp", .addNode 2 "weft", .addNode 3 "fray", .addEdge ⟨1, 1⟩, .addEdge ⟨1, 2⟩,
  .addEdge ⟨2, 1⟩, .addEdge ⟨1, 3⟩, .addEdge ⟨3, 1⟩]

theorem edgePass_eq_countsAt_weave : ∃ out,
    compile weaveRules (.ofNames ["weft", "warp"]) true = .ok out ∧
    (out.grammar.edgePass (Graph.run weaveEdits .empty)).get? 1 =
      some (out.grammar.countsAt (Graph.run weaveEdits .empty) 1) ∧
    (out.grammar.countsAt (Graph.run weaveEdits .empty) 1).count? .source = some 3 ∧
    (out.grammar.countsAt (Graph.run weaveEdits .empty) 1).count? (.sourceOf 0) = some 1 ∧
    (out.grammar.countsAt (Graph.run weaveEdits .empty) 1).count? (.targetOf 1) = some 1 := by
  refine ⟨_, rfl, ?_⟩
  have hedges : (Graph.run weaveEdits .empty).edges.length < UInt32.size := by decide +kernel
  have hcounts (g : Grammar) := edgePass_eq_countsAt g weaveEdits 1
    ⟨Nat.lt_of_le_of_lt List.countP_le_length hedges,
      Nat.lt_of_le_of_lt List.countP_le_length hedges⟩
  have hclass : (Graph.run weaveEdits .empty).class? 1 = some "warp" := by decide +kernel
  refine ⟨(hcounts _).1.trans (by rw [hclass]; rfl), ?_, ?_, ?_⟩
  · exact ((hcounts _).2 _ _).mpr ⟨.source, rfl, .inl rfl, by decide +kernel⟩
  · exact ((hcounts _).2 _ _).mpr ⟨.sourceOf "warp", by decide +kernel, .inr (by decide +kernel),
      by decide +kernel⟩
  · exact ((hcounts _).2 _ _).mpr ⟨.targetOf "weft", by decide +kernel, .inr (by decide +kernel),
      by decide +kernel⟩

end Grammar

end AttachmentGrammar
