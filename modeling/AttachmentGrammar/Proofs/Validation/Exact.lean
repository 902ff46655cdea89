import AttachmentGrammar.Grammar.Compile
import AttachmentGrammar.Proofs.Graph.Effect
import AttachmentGrammar.Proofs.Validation.Checks
/-!
What a full report says. Main statement: for a graph built by edits it lists exactly the edges that
the grammar does not allow, the nodes of unknown classes and the counts out of bounds, each once and
in order.
-/
namespace AttachmentGrammar

variable {g : Grammar} {graph : Graph}

/-- The two ends of an edge have classes that may attach. -/
def Grammar.Permits (g : Grammar) (graph : Graph) (e : Edge) : Prop :=
  ∃ s t, graph.class? e.source = some s ∧ graph.class? e.target = some t ∧ g.allows s t = true

/-- A report that is right and complete, and in order without repetition. -/
structure Report.Exact (r : Report) (g : Grammar) (graph : Graph) : Prop where
  edge_iff : ∀ e, (∃ v ∈ r.edges, v.edge = e) ↔ e ∈ graph.edges ∧ ¬g.Permits graph e
  edge_classes : ∀ v ∈ r.edges, graph.class? v.edge.source = some v.sourceClass ∧
    graph.class? v.edge.target = some v.targetClass ∧ v.reason = refusal
  edge_order : r.edges.Pairwise fun v w => compare v.edge.source w.edge.source = .lt ∨
    v.edge.source = w.edge.source ∧ compare v.edge.target w.edge.target = .lt
  unknownClass_iff : ∀ u, u ∈ r.unknownClasses ↔
    graph.class? u.node = some u.className ∧ u.className ∉ g.vocabulary.names
  unknownClass_order : r.unknownClasses.Pairwise fun u w => compare u.node w.node = .lt
  cardinality_iff : ∀ v, v ∈ r.cardinalities ↔
    graph.class? v.node = some v.className ∧ g.Misses graph v
  cardinality_order : r.cardinalities.Pairwise fun v w => compare v.node w.node = .lt ∨
    v.node = w.node ∧ compare v.role w.role = .lt

namespace Grammar

theorem mem_edges_validate {v : EdgeViolation} : v ∈ (g.validate graph).edges ↔
    v.edge ∈ graph.edges ∧ g.edgeViolation? graph v.edge = some v := by
  change v ∈ graph.edges.filterMap (g.edgeViolation? graph) ↔ _
  rw [List.mem_filterMap]
  constructor
  · intro h
    obtain ⟨e, he, hv⟩ := h
    obtain rfl := (edgeViolation?_eq_some_iff.mp hv).1
    exact ⟨he, hv⟩
  · intro h
    obtain ⟨he, hv⟩ := h
    exact ⟨v.edge, he, hv⟩

/-- An edge is reported exactly if it is there and not permitted. -/
theorem reported_iff (hg : graph.Mirrored) (e : Edge) :
    (∃ v ∈ (g.validate graph).edges, v.edge = e) ↔ e ∈ graph.edges ∧ ¬g.Permits graph e := by
  constructor
  · intro h
    obtain ⟨v, hv, rfl⟩ := h
    obtain ⟨he, hv⟩ := mem_edges_validate.mp hv
    obtain ⟨-, hs, ht, hallows, -⟩ := edgeViolation?_eq_some_iff.mp hv
    refine ⟨he, ?_⟩
    intro h
    obtain ⟨s, t, hs', ht', hallows'⟩ := h
    obtain rfl := Option.some.inj (hs.symm.trans hs')
    obtain rfl := Option.some.inj (ht.symm.trans ht')
    rw [hallows] at hallows'
    cases hallows'
  · intro h
    obtain ⟨he, hpermits⟩ := h
    obtain ⟨s, hs⟩ := Graph.containsNode_iff.mp (hg.containsNode_source he)
    obtain ⟨t, ht⟩ := Graph.containsNode_iff.mp (hg.containsNode_target he)
    have hallows : g.allows s t = false :=
      Bool.eq_false_iff.mpr fun hallows => hpermits ⟨s, t, hs, ht, hallows⟩
    exact ⟨⟨e, s, t, refusal⟩, mem_edges_validate.mpr
      ⟨he, edgeViolation?_eq_some_iff.mpr ⟨rfl, hs, ht, hallows, rfl⟩⟩, rfl⟩

theorem mem_unknownClasses_validate {u : UnknownClass} : u ∈ (g.validate graph).unknownClasses ↔
    graph.class? u.node = some u.className ∧ u.className ∉ g.vocabulary.names := by
  change u ∈ graph.nodes.filterMap (fun e => g.unknownClass? e.1 e.2) ↔ _
  simp only [List.mem_filterMap, unknownClass?_eq_some_iff, Prod.exists]
  constructor
  · intro h
    obtain ⟨node, name, hmem, rfl, hunknown⟩ := h
    exact ⟨SortedMap.mem_toList_iff.mp hmem, hunknown⟩
  · intro h
    obtain ⟨hclass, hunknown⟩ := h
    exact ⟨u.node, u.className, SortedMap.mem_toList_iff.mpr hclass, rfl, hunknown⟩

theorem increasing_edges_validate : (g.validate graph).edges.Pairwise
    fun v w => compare v.edge w.edge = .lt := by
  change (graph.edges.filterMap (g.edgeViolation? graph)).Pairwise _
  rw [List.pairwise_filterMap]
  refine graph.edges_increasing.imp fun {e f} hlt v hv w hw => ?_
  rw [(edgeViolation?_eq_some_iff.mp hv).1, (edgeViolation?_eq_some_iff.mp hw).1]
  exact hlt

theorem increasing_unknownClasses_validate : (g.validate graph).unknownClasses.Pairwise
    fun u w => compare u.node w.node = .lt := by
  change (graph.nodes.filterMap fun e => g.unknownClass? e.1 e.2).Pairwise _
  rw [List.pairwise_filterMap]
  refine graph.classes.increasing.imp fun {a b} hlt u hu w hw => ?_
  rw [(unknownClass?_eq_some_iff.mp hu).1, (unknownClass?_eq_some_iff.mp hw).1]
  exact hlt

theorem mem_cardinalities_validate (hg : graph.Mirrored)
    (hsmall : ∀ id role, graph.attachments id role < UInt32.size) {v : CardinalityViolation} :
    v ∈ (g.validate graph).cardinalities ↔
      graph.class? v.node = some v.className ∧ g.Misses graph v := by
  change v ∈ graph.nodes.flatMap (fun e => g.nodeViolations (g.edgePass graph) e.1 e.2) ↔ _
  rw [List.mem_flatMap]
  constructor
  · intro h
    obtain ⟨⟨node, name⟩, hmem, hv⟩ := h
    have hclass : graph.class? node = some name := SortedMap.mem_toList_iff.mp hmem
    rw [nodeViolations_eq hg hclass] at hv
    cases hid : g.classId? name with
    | none =>
      rw [hid] at hv
      cases hv
    | some id =>
      rw [hid] at hv
      obtain ⟨rfl, rfl, hmisses⟩ :=
        (mem_violationsOf_countsAt hg (Vocabulary.id?_eq_some_iff.mp hid) (hsmall node)).mp hv
      exact ⟨hclass, hmisses⟩
  · intro h
    obtain ⟨hclass, hmisses⟩ := h
    refine ⟨(v.node, v.className), SortedMap.mem_toList_iff.mpr hclass, ?_⟩
    rw [nodeViolations_eq hg hclass]
    cases hid : g.classId? v.className with
    | none =>
      have hdeclared := hmisses.1
      rw [declaredByName?, hid] at hdeclared
      cases hdeclared
    | some id =>
      exact (mem_violationsOf_countsAt hg (Vocabulary.id?_eq_some_iff.mp hid)
        (hsmall v.node)).mpr ⟨rfl, rfl, hmisses⟩

theorem increasing_cardinalities_validate (hg : graph.Mirrored) :
    (g.validate graph).cardinalities.Pairwise fun v w => compare v.node w.node = .lt ∨
      v.node = w.node ∧ compare v.role w.role = .lt := by
  refine SortedMap.pairwise_flatMap_toList graph.classes _ CardinalityViolation.node
    (fun _ _ _ hv => node_of_mem_nodeViolations hv) fun entry hmem => ?_
  obtain ⟨node, name⟩ := entry
  change (g.nodeViolations (g.edgePass graph) node name).Pairwise _
  rw [nodeViolations_eq hg (SortedMap.mem_toList_iff.mp hmem)]
  cases g.classId? name with
  | none => exact .nil
  | some id => exact increasing_violationsOf_countsAt node id

/-- A full report is exact for every graph that edits can build, as long as counts fit. -/
theorem validate_exact (g : Grammar) (edits : List Edit)
    (h : ∀ id, (Graph.run edits .empty).attachments id .source < UInt32.size ∧
      (Graph.run edits .empty).attachments id .target < UInt32.size) :
    (g.validate (Graph.run edits .empty)).Exact g (Graph.run edits .empty) := by
  have hg : (Graph.run edits .empty).Mirrored := Graph.mirrored_run edits Graph.mirrored_empty
  have hsmall (id : NodeId) (role : Role String) :
      (Graph.run edits .empty).attachments id role < UInt32.size := by
    rcases Graph.attachments_le (Graph.run edits .empty) id role with hle | hle
    · exact Nat.lt_of_le_of_lt hle (h id).1
    · exact Nat.lt_of_le_of_lt hle (h id).2
  constructor
  case edge_iff => exact reported_iff hg
  case edge_classes =>
    intro v hv
    obtain ⟨-, hs, ht, -, hreason⟩ := edgeViolation?_eq_some_iff.mp (mem_edges_validate.mp hv).2
    exact ⟨hs, ht, hreason⟩
  case edge_order => exact increasing_edges_validate.imp Edge.compare_eq_lt.mp
  case unknownClass_iff => exact fun u => mem_unknownClasses_validate
  case unknownClass_order => exact increasing_unknownClasses_validate
  case cardinality_iff => exact fun v => mem_cardinalities_validate hg hsmall
  case cardinality_order => exact increasing_cardinalities_validate hg

def chordRules : List Rule := [
  ⟨1, .attachment [⟨⟨"note"⟩, some (.atMost 1)⟩] [⟨⟨"*"⟩, none⟩]⟩,
  ⟨2, .sourceAggregate [⟨⟨"note"⟩, some (.atMost 2)⟩]⟩,
  ⟨3, .targetAggregate [⟨⟨"stem"⟩, some (.atLeast 1)⟩]⟩]

/-- A loop, an edge between notes, and an edge to a node of an unknown class. -/
def chordEdits : List Edit := [
  .addNode 1 "note", .addNode 2 "note", .addNode 3 "stem", .addNode 4 "slur",
  .addEdge ⟨1, 1⟩, .addEdge ⟨1, 2⟩, .addEdge ⟨1, 4⟩]

theorem validate_exact_chord : ∃ out,
    compile chordRules (.ofNames ["stem", "note"]) true = .ok out ∧
    (out.grammar.validate (Graph.run chordEdits .empty)).Exact out.grammar
      (Graph.run chordEdits .empty) ∧
    ⟨1, "note", .sourceOf "note", 2, .atMost 1⟩ ∈
      (out.grammar.validate (Graph.run chordEdits .empty)).cardinalities := by
  refine ⟨_, rfl, ?_⟩
  have hedges : (Graph.run chordEdits .empty).edges.length < UInt32.size := by decide +kernel
  have hexact (g : Grammar) := validate_exact g chordEdits fun id =>
    ⟨Nat.lt_of_le_of_lt List.countP_le_length hedges,
      Nat.lt_of_le_of_lt List.countP_le_length hedges⟩
  refine ⟨hexact _, ((hexact _).cardinality_iff _).mpr ⟨by decide +kernel, ?_⟩⟩
  exact ⟨by decide +kernel, by decide +kernel, .inr (by decide +kernel), by decide +kernel⟩

end Grammar

end AttachmentGrammar
