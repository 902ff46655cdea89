import AttachmentGrammar.Proofs.Validation.Exact
import Mathlib.Data.List.Sort
/-!
One graph under two grammars. Main statements: a report depends on a grammar only through its known
classes, its allowed pairs and its bounds by name, and on these only at the classes that the graph
has; and a grammar that allows more and whose bounds hold fewer counts reports no further edges, and
every count that was out of bounds before.
-/
namespace AttachmentGrammar

/-- Two grammars that say the same of the classes in question. -/
structure Grammar.AlikeOn (g g' : Grammar) (inQuestion : String → Prop) : Prop where
  known_iff : ∀ a, inQuestion a → (a ∈ g.vocabulary.names ↔ a ∈ g'.vocabulary.names)
  allows_eq : ∀ a b, inQuestion a → inQuestion b → g.allows a b = g'.allows a b
  bound_eq : ∀ a role, inQuestion a → (∀ other ∈ role.other?, inQuestion other) →
    g.bound a role = g'.bound a role

/-- Over the same classes, the second grammar allows more pairs, and its bounds hold fewer counts. -/
structure Grammar.TightenedBy (g g' : Grammar) : Prop where
  vocabulary_eq : g.vocabulary = g'.vocabulary
  allows_of_allows : ∀ a b, g.allows a b = true → g'.allows a b = true
  contains_of_contains : ∀ name role n,
    (g'.bound name role).contains n = true → (g.bound name role).contains n = true

/-- The second report has no further edges, and has all counts of the first. -/
structure Report.TightenedBy (r r' : Report) : Prop where
  edges_subset : ∀ v ∈ r'.edges, v ∈ r.edges
  cardinality_kept : ∀ v ∈ r.cardinalities,
    ∃ w ∈ r'.cardinalities, w.node = v.node ∧ w.role = v.role ∧ w.actual = v.actual
  unknownClasses_eq : r.unknownClasses = r'.unknownClasses

theorem Cardinality.contains_unbounded (n : UInt32) : unbounded.contains n = true :=
  contains_iff.mpr ⟨UInt32.zero_le, nofun⟩

variable {g g' : Grammar} {graph : Graph} {v : CardinalityViolation}

namespace Graph

/-- A class that the graph has. -/
def Has (graph : Graph) (name : String) : Prop := ∃ id, graph.class? id = some name

/-- An occupied role speaks of a class that the graph has. -/
theorem has_other {id : NodeId} {role : Role String}
    (h : role.isAggregate = true ∨ 0 < graph.attachments id role) :
    ∀ other ∈ role.other?, graph.Has other := by
  intro other hother
  cases role with
  | source => cases hother
  | target => cases hother
  | sourceOf a =>
    obtain rfl := Option.some.inj hother
    obtain ⟨e, -, he⟩ := List.countP_pos_iff.mp (h.resolve_left Bool.false_ne_true)
    exact ⟨e.target, (of_decide_eq_true he).2⟩
  | targetOf a =>
    obtain rfl := Option.some.inj hother
    obtain ⟨e, -, he⟩ := List.countP_pos_iff.mp (h.resolve_left Bool.false_ne_true)
    exact ⟨e.source, (of_decide_eq_true he).2⟩

end Graph

namespace Grammar

/-! What is found, by bounds alone. -/

/-- A range that does not hold a count is declared, so the bound that stands for none is no case. -/
theorem finds_iff_bound : g.Finds graph v ↔ g.bound v.className v.role = v.expected ∧
    v.actual = .ofNat (graph.attachments v.node v.role) ∧
    (v.role.isAggregate = true ∨ 0 < graph.attachments v.node v.role) ∧
    v.expected.contains v.actual = false := by
  rw [Finds, bound]
  cases h : g.declaredByName? v.className v.role with
  | some c => rw [Option.getD_some, Option.some.injEq]
  | none =>
    refine iff_of_false (fun hdeclared => Option.some_ne_none _ hdeclared.1.symm) fun hfound => ?_
    obtain ⟨hexpected, -, -, hcontains⟩ := hfound
    rw [← hexpected, Option.getD_none, Cardinality.contains_unbounded] at hcontains
    cases hcontains

theorem mem_nodeViolations_iff {node : NodeId} {name : String}
    (hclass : graph.class? node = some name) :
    v ∈ g.nodeViolations (g.edgePass graph) node name ↔
      v.node = node ∧ v.className = name ∧ g.Finds graph v := by
  rw [nodeViolations_eq_tallyAt hclass]
  cases hid : g.classId? name with
  | some id => exact mem_violationsOf_tallyAt (Vocabulary.id?_eq_some_iff.mp hid)
  | none =>
    refine iff_of_false List.not_mem_nil fun hfound => ?_
    obtain ⟨-, rfl, hdeclared, -⟩ := hfound
    rw [declaredByName?, hid] at hdeclared
    cases hdeclared

theorem mem_cardinalities_iff_finds : v ∈ (g.validate graph).cardinalities ↔
    graph.class? v.node = some v.className ∧ g.Finds graph v := by
  change v ∈ graph.nodes.flatMap (fun e => g.nodeViolations (g.edgePass graph) e.1 e.2) ↔ _
  rw [List.mem_flatMap]
  constructor
  · intro h
    obtain ⟨⟨node, name⟩, hmem, hv⟩ := h
    have hclass : graph.class? node = some name := SortedMap.mem_toList_iff.mp hmem
    obtain ⟨rfl, rfl, hfinds⟩ := (mem_nodeViolations_iff hclass).mp hv
    exact ⟨hclass, hfinds⟩
  · intro h
    obtain ⟨hclass, hfinds⟩ := h
    exact ⟨(v.node, v.className), SortedMap.mem_toList_iff.mpr hclass,
      (mem_nodeViolations_iff hclass).mpr ⟨rfl, rfl, hfinds⟩⟩

/-! Grammars that say the same. -/

theorem edges_validate_congr
    (h : ∀ a b, graph.Has a → graph.Has b → g.allows a b = g'.allows a b) :
    (g.validate graph).edges = (g'.validate graph).edges := by
  refine List.filterMap_congr fun e _ => ?_
  simp only [edgeViolation?]
  cases hs : graph.class? e.source with
  | none => rfl
  | some a =>
    cases ht : graph.class? e.target with
    | none => rfl
    | some b => simp only [Option.bind_eq_bind, Option.bind_some, h a b ⟨_, hs⟩ ⟨_, ht⟩]

theorem unknownClasses_validate_congr
    (h : ∀ a, graph.Has a → (a ∈ g.vocabulary.names ↔ a ∈ g'.vocabulary.names)) :
    (g.validate graph).unknownClasses = (g'.validate graph).unknownClasses := by
  refine List.filterMap_congr fun entry hmem => ?_
  have hhas : graph.Has entry.2 := ⟨entry.1, SortedMap.mem_toList_iff.mp hmem⟩
  ext u
  rw [unknownClass?_eq_some_iff, unknownClass?_eq_some_iff, h _ hhas]

/-- The violations of a node are the same in both grammars, so they come in the same order. -/
theorem cardinalities_validate_congr
    (h : ∀ a role, graph.Has a → (∀ other ∈ role.other?, graph.Has other) →
      g.bound a role = g'.bound a role) :
    (g.validate graph).cardinalities = (g'.validate graph).cardinalities := by
  have hfinds {v : CardinalityViolation} (hclass : graph.class? v.node = some v.className) :
      g.Finds graph v ↔ g'.Finds graph v := by
    rw [finds_iff_bound, finds_iff_bound]
    constructor
    · intro hv
      rwa [← h _ _ ⟨_, hclass⟩ (Graph.has_other hv.2.2.1)]
    · intro hv
      rwa [h _ _ ⟨_, hclass⟩ (Graph.has_other hv.2.2.1)]
  refine List.flatMap_congr fun entry hmem => ?_
  have hclass : graph.class? entry.1 = some entry.2 := SortedMap.mem_toList_iff.mp hmem
  have hirrefl : Std.Irrefl fun v w : CardinalityViolation => compare v.role w.role = .lt :=
    ⟨fun v hv => by rw [Std.compare_self] at hv; cases hv⟩
  have hasymm : Std.Antisymm fun v w : CardinalityViolation => compare v.role w.role = .lt :=
    ⟨fun v w hvw hwv => (Std.OrientedCmp.not_lt_of_lt hvw hwv).elim⟩
  refine (increasing_nodeViolations hclass).eq_of_mem_iff (increasing_nodeViolations hclass) ?_
  intro w
  rw [mem_nodeViolations_iff hclass, mem_nodeViolations_iff hclass]
  refine and_congr_right fun hnode => and_congr_right fun hname => hfinds ?_
  rw [hnode, hname, hclass]

theorem AlikeOn.validate_eq {inQuestion : String → Prop} (h : g.AlikeOn g' inQuestion)
    (hgraph : ∀ a, graph.Has a → inQuestion a) : g.validate graph = g'.validate graph := by
  have hedges := edges_validate_congr fun a b ha hb => h.allows_eq a b (hgraph a ha) (hgraph b hb)
  have hcardinalities := cardinalities_validate_congr fun a role ha hother =>
    h.bound_eq a role (hgraph a ha) fun other ho => hgraph other (hother other ho)
  have hunknown := unknownClasses_validate_congr fun a ha => h.known_iff a (hgraph a ha)
  calc g.validate graph
    _ = ⟨(g.validate graph).edges, (g.validate graph).cardinalities,
        (g.validate graph).unknownClasses⟩ := rfl
    _ = g'.validate graph := by rw [hedges, hcardinalities, hunknown]

/-! Grammars that say more. -/

theorem TightenedBy.validate (h : g.TightenedBy g') (graph : Graph) :
    (g.validate graph).TightenedBy (g'.validate graph) where
  edges_subset v hv := by
    obtain ⟨he, hviolation⟩ := mem_edges_validate.mp hv
    obtain ⟨hedge, hs, ht, hallows, hreason⟩ := edgeViolation?_eq_some_iff.mp hviolation
    have hforbidden : g.allows v.sourceClass v.targetClass = false :=
      Bool.eq_false_iff.mpr fun hg => by
        rw [h.allows_of_allows _ _ hg] at hallows
        cases hallows
    exact mem_edges_validate.mpr
      ⟨he, edgeViolation?_eq_some_iff.mpr ⟨hedge, hs, ht, hforbidden, hreason⟩⟩
  cardinality_kept v hv := by
    obtain ⟨hclass, hfinds⟩ := mem_cardinalities_iff_finds.mp hv
    obtain ⟨hbound, hactual, hchecked, hcontains⟩ := finds_iff_bound.mp hfinds
    have houtside : (g'.bound v.className v.role).contains v.actual = false :=
      Bool.eq_false_iff.mpr fun hin => by
        rw [← hbound, h.contains_of_contains _ _ _ hin] at hcontains
        cases hcontains
    refine ⟨{ v with expected := g'.bound v.className v.role }, ?_, rfl, rfl, rfl⟩
    exact mem_cardinalities_iff_finds.mpr
      ⟨hclass, finds_iff_bound.mpr ⟨rfl, hactual, hchecked, houtside⟩⟩
  unknownClasses_eq := unknownClasses_validate_congr fun a _ => by rw [h.vocabulary_eq]

end Grammar

end AttachmentGrammar
