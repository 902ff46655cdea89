import AttachmentGrammar.Proofs.Validation.EdgePass
import AttachmentGrammar.Proofs.Vocabulary
/-!
What the checks find at one place. Main statements: the tally of a node gives for every role the
number of edges that the role speaks of, and a violation is found exactly where a declared bound
does not hold that number. This is so for any graph; where the rows of a graph mirror each other,
the tally can be read off them.
-/
namespace AttachmentGrammar

variable {g : Grammar} {graph : Graph}

/-- The edges of a node in a role; a loop is one edge in each direction. -/
def Graph.attachments (graph : Graph) (id : NodeId) : Role String → Nat
  | .source => graph.edges.countP fun e => e.source = id
  | .target => graph.edges.countP fun e => e.target = id
  | .sourceOf other => graph.edges.countP fun e =>
    e.source = id ∧ graph.class? e.target = some other
  | .targetOf other => graph.edges.countP fun e =>
    e.target = id ∧ graph.class? e.source = some other

theorem Graph.attachments_le (graph : Graph) (id : NodeId) (role : Role String) :
    graph.attachments id role ≤ graph.attachments id .source ∨
      graph.attachments id role ≤ graph.attachments id .target := by
  cases role with
  | source => exact .inl (Nat.le_refl _)
  | target => exact .inr (Nat.le_refl _)
  | sourceOf other => exact .inl (List.countP_mono_left fun e _ h => by simp_all)
  | targetOf other => exact .inr (List.countP_mono_left fun e _ h => by simp_all)

namespace Grammar

theorem edgeViolation?_eq_some_iff {e : Edge} {v : EdgeViolation} :
    g.edgeViolation? graph e = some v ↔ v.edge = e ∧
      graph.class? e.source = some v.sourceClass ∧ graph.class? e.target = some v.targetClass ∧
        g.allows v.sourceClass v.targetClass = false ∧ v.reason = refusal := by
  simp only [edgeViolation?, Option.bind_eq_bind, Option.bind_eq_some_iff]
  constructor
  · intro h
    obtain ⟨s, hs, t, ht, h⟩ := h
    split at h
    · cases h
    · rename_i hallows
      obtain rfl := Option.some.inj h
      exact ⟨rfl, hs, ht, Bool.eq_false_iff.mpr hallows, rfl⟩
  · obtain ⟨edge, s, t, reason⟩ := v
    intro h
    obtain ⟨rfl, hs, ht, hallows, rfl⟩ := h
    exact ⟨s, hs, t, ht, by simp [hallows]⟩

theorem unknownClass?_eq_some_iff {node : NodeId} {name : String} {u : UnknownClass} :
    g.unknownClass? node name = some u ↔ u = ⟨node, name⟩ ∧ name ∉ g.vocabulary.names := by
  have hunknown : name ∉ g.vocabulary.names ↔ g.classId? name = none := by
    rw [Vocabulary.mem_names_iff, classId?, Option.eq_none_iff_forall_ne_some]
    simp [Vocabulary.id?_eq_some_iff]
  rw [hunknown, unknownClass?]
  cases g.classId? name <;> simp [eq_comm]

theorem roleViolation?_eq_some_iff {node : NodeId} {id : ClassId} {role : Role ClassId}
    {actual : UInt32} {v : CardinalityViolation} :
    g.roleViolation? node id role actual = some v ↔ v.node = node ∧
      v.className = g.vocabulary.name id ∧ v.role = g.roleName role ∧ v.actual = actual ∧
        g.declared? id role = some v.expected ∧ v.expected.contains v.actual = false := by
  simp only [roleViolation?, Option.bind_eq_bind, Option.bind_eq_some_iff]
  constructor
  · intro h
    obtain ⟨expected, hexpected, h⟩ := h
    split at h
    · cases h
    · rename_i hcontains
      obtain rfl := Option.some.inj h
      exact ⟨rfl, rfl, rfl, rfl, hexpected, Bool.eq_false_iff.mpr hcontains⟩
  · obtain ⟨vnode, className, vrole, vactual, expected⟩ := v
    intro h
    obtain ⟨rfl, rfl, rfl, rfl, hexpected, hcontains⟩ := h
    exact ⟨expected, hexpected, by simp [hcontains]⟩

theorem mem_violationsOf {node : NodeId} {id : ClassId} {counts : Tally}
    {v : CardinalityViolation} : v ∈ g.violationsOf node id counts ↔
      ∃ role, (role, v.actual) ∈ counts.byRole ∧ v.node = node ∧
        v.className = g.vocabulary.name id ∧ v.role = g.roleName role ∧
          g.declared? id role = some v.expected ∧ v.expected.contains v.actual = false := by
  simp only [violationsOf, List.mem_filterMap, roleViolation?_eq_some_iff, Prod.exists]
  constructor
  · intro h
    obtain ⟨role, _, hmem, hnode, hname, hrole, rfl, hexpected⟩ := h
    exact ⟨role, hmem, hnode, hname, hrole, hexpected⟩
  · intro h
    obtain ⟨role, hmem, hnode, hname, hrole, hexpected⟩ := h
    exact ⟨role, v.actual, hmem, hnode, hname, hrole, rfl, hexpected⟩

theorem node_of_mem_nodeViolations {counts : SortedMap NodeId Tally} {node : NodeId}
    {name : String} {v : CardinalityViolation} (h : v ∈ g.nodeViolations counts node name) :
    v.node = node := by
  unfold nodeViolations at h
  split at h
  · cases h
  · obtain ⟨_, -, hnode, -⟩ := mem_violationsOf.mp h
    exact hnode

/-! The tally of a node. -/

theorem classAt?_eq_some_iff {x : NodeId} {id : ClassId} : g.classAt? graph x = some id ↔
    ∃ name, graph.class? x = some name ∧ g.vocabulary.name? id = some name := by
  simp only [classAt?, Option.bind_eq_some_iff, classId?, Vocabulary.id?_eq_some_iff]

theorem nodeViolations_eq_tallyAt {node : NodeId} {name : String}
    (hclass : graph.class? node = some name) : g.nodeViolations (g.edgePass graph) node name =
      ((g.classId? name).map fun id => g.violationsOf node id (g.tallyAt graph node)).getD [] := by
  rw [nodeViolations, get?_edgePass, hclass]
  cases g.classId? name <;> rfl

theorem nodeViolations_eq (hg : graph.Mirrored) {node : NodeId} {name : String}
    (hclass : graph.class? node = some name) : g.nodeViolations (g.edgePass graph) node name =
      ((g.classId? name).map fun id => g.violationsOf node id (g.countsAt graph node)).getD [] := by
  rw [nodeViolations_eq_tallyAt hclass, tallyAt_eq_countsAt hg]

theorem classAt?_iff_class? {x : NodeId} {k : ClassId} {name : String}
    (h : g.vocabulary.name? k = some name) :
    g.classAt? graph x = some k ↔ graph.class? x = some name := by
  rw [classAt?_eq_some_iff]
  simp [h]

theorem amount_eq_attachments {id : NodeId} {key : Role ClassId} {role : Role String}
    (h : key.mapM? g.vocabulary.name? = some role) :
    Tally.amount ((graph.targets id).map (g.classAt? graph))
      ((graph.origins id).map (g.classAt? graph)) key = graph.attachments id role := by
  rw [← graph.targets_eq, Graph.origins]
  cases key with
  | source =>
    obtain rfl := Option.some.inj h
    simp [Tally.amount, Graph.attachments, List.countP_eq_length_filter]
  | target =>
    obtain rfl := Option.some.inj h
    simp [Tally.amount, Graph.attachments, List.countP_eq_length_filter]
  | sourceOf other =>
    obtain ⟨name, hname, rfl⟩ := Option.map_eq_some_iff.mp h
    simp only [Tally.amount, Graph.attachments, List.count, List.countP_map, List.countP_filter]
    refine List.countP_congr fun e _ => ?_
    simp [classAt?_iff_class? hname, and_comm]
  | targetOf other =>
    obtain ⟨name, hname, rfl⟩ := Option.map_eq_some_iff.mp h
    simp only [Tally.amount, Graph.attachments, List.count, List.countP_map, List.countP_filter]
    refine List.countP_congr fun e _ => ?_
    simp [classAt?_iff_class? hname, and_comm]

/-- Only classes that the grammar knows are counted apart. -/
theorem known_of_mem_byRole {targets sources : List NodeId} {key : Role ClassId} {n : UInt32}
    (h : (key, n) ∈ (Tally.ofClasses (targets.map (g.classAt? graph))
      (sources.map (g.classAt? graph))).byRole) :
    ∃ role, key.mapM? g.vocabulary.name? = some role := by
  have hknown {ids : List NodeId} {k : ClassId}
      (hk : 0 < (ids.map (g.classAt? graph)).count (some k)) :
      ∃ name, g.vocabulary.name? k = some name := by
    obtain ⟨x, -, hx⟩ := List.mem_map.mp (List.count_pos_iff.mp hk)
    obtain ⟨name, -, hname⟩ := classAt?_eq_some_iff.mp hx
    exact ⟨name, hname⟩
  rw [Tally.mem_byRole] at h
  cases key with
  | source => exact ⟨.source, rfl⟩
  | target => exact ⟨.target, rfl⟩
  | sourceOf k =>
    obtain ⟨name, hname⟩ := hknown (h.1.resolve_left Bool.false_ne_true)
    exact ⟨.sourceOf name, by rw [Role.mapM?, hname, Option.map_some]⟩
  | targetOf k =>
    obtain ⟨name, hname⟩ := hknown (h.1.resolve_left Bool.false_ne_true)
    exact ⟨.targetOf name, by rw [Role.mapM?, hname, Option.map_some]⟩

theorem declaredByName?_eq_some_iff {id : ClassId} {name : String} {role : Role String}
    {expected : Cardinality} (h : g.vocabulary.name? id = some name) :
    g.declaredByName? name role = some expected ↔
      ∃ key, key.mapM? g.vocabulary.name? = some role ∧ g.declared? id key = some expected := by
  have hids : g.classId? = g.vocabulary.id? := rfl
  simp only [declaredByName?, hids, Vocabulary.id?_eq_some_iff.mpr h, Option.bind_eq_bind,
    Option.bind_some, Option.bind_eq_some_iff, Role.mapM?_id?_iff]

/-- A count is wrong if a bound is declared for it and does not hold it; the aggregates are counted
always, the other roles where they are occupied. -/
def Misses (g : Grammar) (graph : Graph) (v : CardinalityViolation) : Prop :=
  g.declaredByName? v.className v.role = some v.expected ∧
    v.actual.toNat = graph.attachments v.node v.role ∧
    (v.role.isAggregate = true ∨ 0 < graph.attachments v.node v.role) ∧
    v.expected.contains v.actual = false

/-- The same with the number of attachments as the word that it is counted in. -/
def Finds (g : Grammar) (graph : Graph) (v : CardinalityViolation) : Prop :=
  g.declaredByName? v.className v.role = some v.expected ∧
    v.actual = .ofNat (graph.attachments v.node v.role) ∧
    (v.role.isAggregate = true ∨ 0 < graph.attachments v.node v.role) ∧
    v.expected.contains v.actual = false

theorem finds_iff_misses {v : CardinalityViolation}
    (hsmall : graph.attachments v.node v.role < UInt32.size) :
    g.Finds graph v ↔ g.Misses graph v := by
  have hword : v.actual = .ofNat (graph.attachments v.node v.role) ↔
      v.actual.toNat = graph.attachments v.node v.role := by
    rw [← UInt32.toNat_inj, UInt32.toNat_ofNat_of_lt' hsmall]
  rw [Finds, Misses, hword]

theorem mem_violationsOf_tallyAt {node : NodeId} {id : ClassId} {name : String}
    (hname : g.vocabulary.name? id = some name) {v : CardinalityViolation} :
    v ∈ g.violationsOf node id (g.tallyAt graph node) ↔
      v.node = node ∧ v.className = name ∧ g.Finds graph v := by
  rw [mem_violationsOf]
  constructor
  · intro h
    obtain ⟨key, hmem, rfl, hclass, hroleName, hdeclared, hcontains⟩ := h
    rw [Vocabulary.name_eq hname] at hclass
    obtain ⟨role, hkey⟩ := known_of_mem_byRole hmem
    have hrole : v.role = role := hroleName.trans (Role.map_name hkey)
    rw [tallyAt, Tally.mem_byRole, amount_eq_attachments hkey, Role.isAggregate_mapM? hkey] at hmem
    rw [Finds, hrole, hclass, declaredByName?_eq_some_iff hname]
    exact ⟨rfl, rfl, ⟨key, hkey, hdeclared⟩, hmem.2, hmem.1, hcontains⟩
  · intro h
    obtain ⟨rfl, hclass, hdeclared, hactual, hchecked, hcontains⟩ := h
    rw [hclass, declaredByName?_eq_some_iff hname] at hdeclared
    obtain ⟨key, hkey, hdeclared⟩ := hdeclared
    refine ⟨key, ?_, rfl, hclass.trans (Vocabulary.name_eq hname).symm, (Role.map_name hkey).symm,
      hdeclared, hcontains⟩
    rw [tallyAt, Tally.mem_byRole, amount_eq_attachments hkey, Role.isAggregate_mapM? hkey]
    exact ⟨hchecked, hactual⟩

theorem mem_violationsOf_countsAt (hg : graph.Mirrored) {node : NodeId} {id : ClassId}
    {name : String} (hname : g.vocabulary.name? id = some name)
    (hsmall : ∀ role, graph.attachments node role < UInt32.size) {v : CardinalityViolation} :
    v ∈ g.violationsOf node id (g.countsAt graph node) ↔
      v.node = node ∧ v.className = name ∧ g.Misses graph v := by
  rw [← tallyAt_eq_countsAt hg, mem_violationsOf_tallyAt hname]
  refine and_congr_right fun hnode => and_congr_right fun _ => ?_
  subst hnode
  exact finds_iff_misses (hsmall v.role)

theorem increasing_violationsOf (node : NodeId) (id : ClassId) (targets sources : List NodeId) :
    (g.violationsOf node id (.ofClasses (targets.map (g.classAt? graph))
      (sources.map (g.classAt? graph)))).Pairwise fun v w => compare v.role w.role = .lt := by
  rw [violationsOf, List.pairwise_filterMap]
  refine (Tally.increasing_byRole _).imp_of_mem fun {a b} ha hb hlt v hv w hw => ?_
  obtain ⟨role, hrole⟩ := known_of_mem_byRole ha
  obtain ⟨role', hrole'⟩ := known_of_mem_byRole hb
  have hv : v.role = role :=
    (roleViolation?_eq_some_iff.mp hv).2.2.1.trans (Role.map_name hrole)
  have hw : w.role = role' :=
    (roleViolation?_eq_some_iff.mp hw).2.2.1.trans (Role.map_name hrole')
  rw [hv, hw]
  exact Role.compare_names hrole hrole' hlt

theorem increasing_nodeViolations {node : NodeId} {name : String}
    (hclass : graph.class? node = some name) :
    (g.nodeViolations (g.edgePass graph) node name).Pairwise
      fun v w => compare v.role w.role = .lt := by
  rw [nodeViolations_eq_tallyAt hclass]
  cases g.classId? name with
  | none => exact .nil
  | some id => exact increasing_violationsOf node id _ _

theorem increasing_violationsOf_countsAt (node : NodeId) (id : ClassId) :
    (g.violationsOf node id (g.countsAt graph node)).Pairwise
      fun v w => compare v.role w.role = .lt := by
  rw [countsAt_eq]
  exact increasing_violationsOf node id _ _

end Grammar

end AttachmentGrammar
