import AttachmentGrammar.Proofs.Grammar.Growth
import AttachmentGrammar.Proofs.Grammar.Reordering
/-!
Bounds that no node can meet. Main statement: a warning about such a bound is never a false alarm.
In every graph that edits can build, a node of the class has no edge in the direction of the bound,
and then its count of 0 is reported, or it has some, and then each of them is reported.
-/
namespace AttachmentGrammar

variable {g : Grammar} {graph : Graph} {id : NodeId} {name : String} {role : Role String}

/-! Who takes part in a report. -/

namespace Report

variable {r : Report}

theorem mem_involvedNodes : id ∈ r.involvedNodes ↔
    (∃ v ∈ r.edges, v.edge.source = id ∨ v.edge.target = id) ∨
      (∃ v ∈ r.cardinalities, v.node = id) ∨ ∃ u ∈ r.unknownClasses, u.node = id := by
  simp only [involvedNodes, SortedSet.mem_ofList, List.mem_append, List.mem_flatMap, List.mem_map,
    List.mem_cons, List.not_mem_nil, or_false, or_assoc, eq_comm (a := id)]

/-- Nobody takes part in a valid report. -/
theorem isValid_eq_false_of_mem (h : id ∈ r.involvedNodes) : r.isValid = false := by
  rw [Bool.eq_false_iff]
  intro hvalid
  obtain ⟨hedges, hcardinalities, hunknown⟩ := isValid_iff.mp hvalid
  rw [mem_involvedNodes, hedges, hcardinalities, hunknown] at h
  simp at h

theorem mem_involvedNodes_of_edge {e : Edge} (hends : e.source = id ∨ e.target = id)
    (he : ∃ v ∈ r.edges, v.edge = e) : id ∈ r.involvedNodes := by
  obtain ⟨v, hv, rfl⟩ := he
  exact mem_involvedNodes.mpr (.inl ⟨v, hv, hends⟩)

end Report

/-! Directions that are closed to a class. -/

/-- The edges of a node in a role. -/
def Graph.edgesIn (graph : Graph) (id : NodeId) : Role String → List Edge
  | .source => graph.edges.filter fun e => e.source = id
  | .target => graph.edges.filter fun e => e.target = id
  | .sourceOf other => graph.edges.filter fun e =>
    e.source = id ∧ graph.class? e.target = some other
  | .targetOf other => graph.edges.filter fun e =>
    e.target = id ∧ graph.class? e.source = some other

theorem Graph.ends_of_mem_edgesIn {e : Edge} (he : e ∈ graph.edgesIn id role) :
    e.source = id ∨ e.target = id := by
  cases role with
  | source => exact .inl (of_decide_eq_true (List.mem_filter.mp he).2)
  | target => exact .inr (of_decide_eq_true (List.mem_filter.mp he).2)
  | sourceOf other => exact .inl (of_decide_eq_true (List.mem_filter.mp he).2).1
  | targetOf other => exact .inr (of_decide_eq_true (List.mem_filter.mp he).2).1

theorem Graph.length_edgesIn : (graph.edgesIn id role).length = graph.attachments id role := by
  cases role <;> exact List.countP_eq_length_filter.symm

namespace Grammar

/-- The grammar allows the class no edge in the role. -/
def Closed (g : Grammar) (name : String) : Role String → Prop
  | .source => ∀ other, g.allows name other = false
  | .target => ∀ other, g.allows other name = false
  | .sourceOf other => g.allows name other = false
  | .targetOf other => g.allows other name = false

theorem not_permits_of_source {e : Edge} {s : String} (hs : graph.class? e.source = some s)
    (h : ∀ t, graph.class? e.target = some t → g.allows s t = false) : ¬g.Permits graph e := by
  intro hpermits
  obtain ⟨s', t, hs', ht, hallows⟩ := hpermits
  obtain rfl : s = s' := Option.some.inj (hs.symm.trans hs')
  rw [h t ht] at hallows
  cases hallows

theorem not_permits_of_target {e : Edge} {t : String} (ht : graph.class? e.target = some t)
    (h : ∀ s, graph.class? e.source = some s → g.allows s t = false) : ¬g.Permits graph e := by
  intro hpermits
  obtain ⟨s, t', hs, ht', hallows⟩ := hpermits
  obtain rfl : t = t' := Option.some.inj (ht.symm.trans ht')
  rw [h s hs] at hallows
  cases hallows

/-- An edge in a closed direction is never permitted. -/
theorem not_permits_of_closed (hclass : graph.class? id = some name) (hclosed : g.Closed name role)
    {e : Edge} (he : e ∈ graph.edgesIn id role) : e ∈ graph.edges ∧ ¬g.Permits graph e := by
  cases role with
  | source =>
    obtain ⟨hmem, hsource⟩ := List.mem_filter.mp he
    obtain rfl := of_decide_eq_true hsource
    exact ⟨hmem, not_permits_of_source hclass fun t _ => hclosed t⟩
  | target =>
    obtain ⟨hmem, htarget⟩ := List.mem_filter.mp he
    obtain rfl := of_decide_eq_true htarget
    exact ⟨hmem, not_permits_of_target hclass fun s _ => hclosed s⟩
  | sourceOf other =>
    obtain ⟨hmem, hends⟩ := List.mem_filter.mp he
    obtain ⟨rfl, hother⟩ := of_decide_eq_true hends
    refine ⟨hmem, not_permits_of_target hother fun s hs => ?_⟩
    obtain rfl : name = s := Option.some.inj (hclass.symm.trans hs)
    exact hclosed
  | targetOf other =>
    obtain ⟨hmem, hends⟩ := List.mem_filter.mp he
    obtain ⟨rfl, hother⟩ := of_decide_eq_true hends
    refine ⟨hmem, not_permits_of_source hother fun t ht => ?_⟩
    obtain rfl : name = t := Option.some.inj (hclass.symm.trans ht)
    exact hclosed

theorem mem_cardinalities_of_no_edges {bound : Cardinality}
    (hclass : graph.class? id = some name) (hdeclared : g.declaredByName? name role = some bound)
    (haggregate : role.isAggregate = true) (hzero : bound.contains 0 = false)
    (hnone : graph.edgesIn id role = []) :
    ⟨id, name, role, 0, bound⟩ ∈ (g.validate graph).cardinalities := by
  have hcount : graph.attachments id role = 0 := by
    rw [← Graph.length_edgesIn, hnone, List.length_nil]
  have hactual : (0 : UInt32) = .ofNat (graph.attachments id role) := by
    rw [hcount]
    rfl
  exact mem_cardinalities_iff_finds.mpr ⟨hclass, hdeclared, hactual, .inl haggregate, hzero⟩

/-- What a node of the class shows: the count 0 is reported, or else all its edges are. -/
theorem violation_of_closed (hg : graph.Mirrored) {bound : Cardinality}
    (hclass : graph.class? id = some name) (hdeclared : g.declaredByName? name role = some bound)
    (haggregate : role.isAggregate = true) (hzero : bound.contains 0 = false)
    (hclosed : g.Closed name role) :
    (graph.edgesIn id role = [] ∧
        ⟨id, name, role, 0, bound⟩ ∈ (g.validate graph).cardinalities) ∨
      (graph.edgesIn id role ≠ [] ∧
        ∀ e ∈ graph.edgesIn id role, ∃ w ∈ (g.validate graph).edges, w.edge = e) := by
  by_cases hnone : graph.edgesIn id role = []
  · exact .inl ⟨hnone, mem_cardinalities_of_no_edges hclass hdeclared haggregate hzero hnone⟩
  · refine .inr ⟨hnone, fun e he => (reported_iff hg e).mpr ?_⟩
    exact not_permits_of_closed hclass hclosed he

end Grammar

/-! The warning. -/

variable {rules : List Rule} {v : Vocabulary} {strict : Bool} {out : Compilation} {line : Nat}
  {bound : Cardinality}

theorem Draft.unsatisfiable?_eq_some_iff {r : Relation} {p : Position} {entry : Entry}
    {w : Warning} : unsatisfiable? v r p entry = some w ↔
      isOrphan r p = false ∧ attaches r p = false ∧ entry.bound.contains 0 = false ∧
        w = .unsatisfiableBound (entry.lines.headD 0) (v.name p.classId) (p.role.map v.name)
          entry.bound := by
  rw [unsatisfiable?]
  cases isOrphan r p <;> cases attaches r p <;> cases entry.bound.contains 0 <;> simp [eq_comm]

/-- Only the last check of the table warns of bounds. -/
theorem mem_unsatisfiable_of_mem_warnings (hout : compile rules v strict = .ok out)
    (hw : .unsatisfiableBound line name role bound ∈ out.warnings) :
    .unsatisfiableBound line name role bound ∈ (draftOf rules v strict).unsatisfiable v := by
  obtain ⟨-, rfl⟩ := compile_eq_ok_iff.mp hout
  have hunsatisfiable : .unsatisfiableBound line name role bound ∈
      Warning.unsatisfiable (accepted rules v strict).warnings := List.mem_filter.mpr ⟨hw, rfl⟩
  rwa [unsatisfiable_accepted] at hunsatisfiable

/-- A warning of a bound is about a declared one that does not hold 0, for all attachments of the
class in a direction in which the grammar allows it none. -/
theorem closed_of_mem_warnings (hout : compile rules v strict = .ok out)
    (hw : .unsatisfiableBound line name role bound ∈ out.warnings) :
    out.grammar.declaredByName? name role = some bound ∧ role.isAggregate = true ∧
      bound.contains 0 = false ∧ out.grammar.Closed name role := by
  obtain ⟨-, hvocabulary, -, hbounds⟩ := compile_eq_ok hout
  have hdraft := mem_unsatisfiable_of_mem_warnings hout hw
  obtain ⟨⟨p, entry⟩, hentry, hwarning⟩ := List.mem_filterMap.mp hdraft
  have hget : (draftOf rules v strict).table.get? p = some entry :=
    SortedMap.mem_toList_iff.mp hentry
  obtain ⟨-, hattaches, hzero, heq⟩ := Draft.unsatisfiable?_eq_some_iff.mp hwarning
  obtain ⟨name', role', hnames⟩ := exists_names_of_get? hget
  rw [hnames.className_eq, hnames.roleName_eq] at heq
  obtain ⟨-, rfl, rfl, rfl⟩ := Warning.unsatisfiableBound.inj heq
  have hdeclared : out.grammar.declared? p.classId p.role = some entry.bound := by
    rw [Grammar.declared?, hbounds, SortedMap.get?_mapValues, hget, Option.map_some]
  have hname : out.grammar.vocabulary.name? p.classId = some name := by
    rw [hvocabulary, hnames.name_eq]
  have hrole : p.role.mapM? out.grammar.vocabulary.name? = some role := by
    rw [hvocabulary, hnames.role_eq]
  refine ⟨?_, ?_⟩
  · exact (Grammar.declaredByName?_eq_some_iff hname).mpr ⟨p.role, hrole, hdeclared⟩
  · have hforbidden {a b : String} (hnot : ¬Allowed rules v a b) :
        out.grammar.allows a b = false :=
      Bool.eq_false_iff.mpr fun hallows => hnot ((allows_iff_allowed hout).mp hallows)
    obtain ⟨id, key⟩ := p
    cases key with
    | source =>
      obtain rfl : .source = role := Option.some.inj hnames.role_eq
      refine ⟨rfl, hzero, fun other => hforbidden fun hallowed => ?_⟩
      have hmark : (draftOf rules v strict).relation.hasOutgoing id = true :=
        (hasOutgoing_iff_allowed hnames.name_eq).mpr ⟨other, hallowed⟩
      rw [Draft.attaches, hmark] at hattaches
      cases hattaches
    | target =>
      obtain rfl : .target = role := Option.some.inj hnames.role_eq
      refine ⟨rfl, hzero, fun other => hforbidden fun hallowed => ?_⟩
      have hmark : (draftOf rules v strict).relation.hasIncoming id = true :=
        (hasIncoming_iff_allowed hnames.name_eq).mpr ⟨other, hallowed⟩
      rw [Draft.attaches, hmark] at hattaches
      cases hattaches
    | sourceOf other => cases hattaches
    | targetOf other => cases hattaches

/-- No graph with a node of the class is valid. The node has no edge there, and the count 0 is out
of bounds, or it has edges there, and none of them is permitted. -/
theorem compile_unsatisfiable (hout : compile rules v strict = .ok out)
    (hw : .unsatisfiableBound line name role bound ∈ out.warnings) (edits : List Edit)
    (hclass : (Graph.run edits .empty).class? id = some name) :
    let graph := Graph.run edits .empty
    let report := out.grammar.validate graph
    id ∈ report.involvedNodes ∧ report.isValid = false ∧ (role = .source ∨ role = .target) ∧
      ((graph.edgesIn id role = [] ∧ ⟨id, name, role, 0, bound⟩ ∈ report.cardinalities) ∨
        (graph.edgesIn id role ≠ [] ∧
          ∀ e ∈ graph.edgesIn id role, ∃ w ∈ report.edges, w.edge = e)) := by
  intro graph report
  have hg : graph.Mirrored := Graph.mirrored_run edits Graph.mirrored_empty
  obtain ⟨hdeclared, haggregate, hzero, hclosed⟩ := closed_of_mem_warnings hout hw
  have hcases := Grammar.violation_of_closed hg hclass hdeclared haggregate hzero hclosed
  have hinvolved : id ∈ report.involvedNodes := by
    rcases hcases with ⟨-, hcount⟩ | ⟨hsome, hreported⟩
    · exact Report.mem_involvedNodes.mpr (.inr (.inl ⟨_, hcount, rfl⟩))
    · obtain ⟨e, he⟩ := List.exists_mem_of_ne_nil _ hsome
      exact Report.mem_involvedNodes_of_edge (Graph.ends_of_mem_edgesIn he) (hreported e he)
  have hrole : role = .source ∨ role = .target := by
    cases role <;> simp_all [Role.isAggregate]
  exact ⟨hinvolved, Report.isValid_eq_false_of_mem hinvolved, hrole, hcases⟩

def drainRules : List Rule := [
  ⟨1, .attachment [⟨⟨"pump"⟩, none⟩] [⟨⟨"d*"⟩, some (.atMost 2)⟩]⟩,
  ⟨3, .sourceAggregate [⟨⟨"*n"⟩, some (.atLeast 1)⟩]⟩]

/-- A drain without edges, one with a loop, and one with an edge to a node of an unknown class. -/
def drainEdits : List Edit := [
  .addNode 1 "drain", .addNode 2 "drain", .addNode 3 "drain", .addNode 4 "leak",
  .addEdge ⟨2, 2⟩, .addEdge ⟨3, 4⟩]

theorem compile_unsatisfiable_drain : ∃ out,
    compile drainRules (.ofNames ["pump", "drain"]) true = .ok out ∧
      .unsatisfiableBound 3 "drain" .source (.atLeast 1) ∈ out.warnings ∧
      (∀ id ∈ [1, 2, 3],
        id ∈ (out.grammar.validate (Graph.run drainEdits .empty)).involvedNodes) ∧
      (out.grammar.validate (Graph.run drainEdits .empty)).isValid = false := by
  have hout : compile drainRules (.ofNames ["pump", "drain"]) true = .ok _ := rfl
  refine ⟨_, hout, ?_⟩
  have hw : .unsatisfiableBound 3 "drain" .source (.atLeast 1) ∈
      (accepted drainRules (.ofNames ["pump", "drain"]) true).warnings := by decide +kernel
  -- one node at a time, since a decision over all of them goes through every number
  have hclass : ∀ id ∈ [1, 2, 3], (Graph.run drainEdits .empty).class? id = some "drain" := by
    intro id hid
    simp only [List.mem_cons, List.not_mem_nil, or_false] at hid
    obtain rfl | rfl | rfl := hid <;> decide +kernel
  have hnode (id : NodeId) (hid : id ∈ [1, 2, 3]) :=
    compile_unsatisfiable hout hw drainEdits (hclass id hid)
  exact ⟨hw, fun id hid => (hnode id hid).1, (hnode 1 (by decide)).2.1⟩

end AttachmentGrammar
