import AttachmentGrammar.Proofs.Grammar.Faults
import AttachmentGrammar.Proofs.Relation.Pairs
/-!
The form of a compiled grammar. Main statements: the relation has a row and a column for every known
class, and the relation and the table of bounds speak of known classes only; a class is bounded
towards another, or from it, only where the two may attach, and in all only where it attaches
somewhere; no range in the table holds every count, and none is empty unless the rules give an empty
one.
-/
namespace AttachmentGrammar

variable {rules : List Rule} {v : Vocabulary} {strict : Bool} {name : String} {role : Role String}
  {p : Position}

/-! Positions of known classes. -/

/-- The classes of a position have numbers below the bound. -/
structure Position.Below (n : Nat) (p : Position) : Prop where
  classId_lt : p.classId < n
  other_lt : ∀ other ∈ p.role.other?, other < n

namespace Position

theorem Names.below (h : p.Names v name role) : p.Below v.size := by
  refine ⟨Vocabulary.lt_size h.name_eq, ?_⟩
  intro other hother
  obtain ⟨id, key⟩ := p
  obtain ⟨-, hrole⟩ := h
  cases key with
  | source => cases hother
  | target => cases hother
  | sourceOf i =>
    obtain rfl := Option.some.inj hother
    obtain ⟨a, ha, -⟩ := Option.map_eq_some_iff.mp hrole
    exact Vocabulary.lt_size ha
  | targetOf i =>
    obtain rfl := Option.some.inj hother
    obtain ⟨a, ha, -⟩ := Option.map_eq_some_iff.mp hrole
    exact Vocabulary.lt_size ha

theorem Below.exists_names (h : p.Below v.size) : ∃ name role, p.Names v name role := by
  obtain ⟨id, key⟩ := p
  obtain ⟨a, ha⟩ := exists_name_of_lt h.classId_lt
  cases key with
  | source => exact ⟨a, .source, ha, rfl⟩
  | target => exact ⟨a, .target, ha, rfl⟩
  | sourceOf i =>
    obtain ⟨b, hb⟩ := exists_name_of_lt (h.other_lt i rfl)
    exact ⟨a, .sourceOf b, ha, Option.map_eq_some_iff.mpr ⟨b, hb, rfl⟩⟩
  | targetOf i =>
    obtain ⟨b, hb⟩ := exists_name_of_lt (h.other_lt i rfl)
    exact ⟨a, .targetOf b, ha, Option.map_eq_some_iff.mpr ⟨b, hb, rfl⟩⟩

end Position

/-! Ranges in the table. -/

/-- Narrowing a range that does not hold every count leaves such a range. -/
theorem Cardinality.ne_unbounded_of_intersect? {a b c : Cardinality}
    (h : a.intersect? b = some c) (ha : a ≠ unbounded) : c ≠ unbounded := by
  intro hc
  subst hc
  obtain ⟨hc, -⟩ := ofBounds?_eq_some_iff.mp h
  obtain ⟨hlow, hhigh⟩ := Cardinality.mk.inj hc
  apply ha
  obtain ⟨low, high⟩ := a
  have hzero : low ≤ 0 := (max_low_le_iff.mp (Std.le_of_eq hlow.symm)).1
  have hnone : high = none := by
    cases high with
    | none => rfl
    | some n => cases hb : b.high <;> simp [leastHigh, hb] at hhigh
  rw [unbounded, hnone, Std.le_antisymm hzero UInt32.zero_le]

namespace Table

variable {t : Table} {P : Cardinality → Prop}

/-- Every range that the table holds has a property. -/
def Holds (P : Cardinality → Prop) (t : Table) : Prop :=
  ∀ p entry, t.get? p = some entry → P entry.bound

theorem holds_insert {entry : Entry} (h : t.Holds P) (hentry : P entry.bound) :
    Holds P (t.insert p entry) := by
  intro p' entry' hget
  rw [SortedMap.get?_insert_eq] at hget
  split at hget
  · obtain rfl := Option.some.inj hget
    exact hentry
  · exact h p' entry' hget

theorem holds_settle (hmeet : ∀ a b c, P a → P b → a.intersect? b = some c → P c) {q : Demand}
    (h : t.Holds P) (hq : P q.range) : (t.settle q).Holds P := by
  rw [settle]
  split
  · exact holds_insert h hq
  · rename_i entry hentry
    split
    · exact h
    · rename_i bound hbound
      exact holds_insert h (hmeet _ _ _ (h _ _ hentry) hq hbound)

/-- What all ranges asked for have in common, and intersecting keeps, the table has too. -/
theorem holds_foldl_settle (hmeet : ∀ a b c, P a → P b → a.intersect? b = some c → P c)
    {qs : List Demand} (h : t.Holds P) (hqs : ∀ q ∈ qs, P q.range) :
    (qs.foldl settle t).Holds P := by
  induction qs generalizing t with
  | nil => exact h
  | cons q qs ih =>
    obtain ⟨hq, hrest⟩ := List.forall_mem_cons.mp hqs
    exact ih (holds_settle hmeet h hq) hrest

end Table

theorem range_mem_contributions {q : Demand} (h : q ∈ rules.flatMap (Rule.demands v)) :
    ∃ name role, q.range ∈ contributions rules name role := by
  obtain ⟨name, role, hnames⟩ := exists_names h
  exact ⟨name, role, (mem_asked_contributions hnames.name_eq hnames.role_eq).mp
    (mem_asked.mpr ⟨q.line, h⟩)⟩

theorem ne_unbounded_of_mem_contributions {c : Cardinality}
    (h : c ∈ contributions rules name role) : c ≠ .unbounded := by
  obtain ⟨rule, -, hc⟩ := List.mem_flatMap.mp h
  obtain ⟨t, -, hbound⟩ := List.mem_filterMap.mp hc
  have hnot := (Option.mem_filter_iff.mp hbound).2
  simpa [Cardinality.isUnbounded] using hnot

theorem holds_of_get? {P : Cardinality → Prop}
    (hmeet : ∀ a b c, P a → P b → a.intersect? b = some c → P c)
    (hgiven : ∀ name role, ∀ c ∈ contributions rules name role, P c) {c : Cardinality}
    (hc : (accepted rules v strict).grammar.bounds.get? p = some c) : P c := by
  have htable : Table.Holds P (draftOf rules v strict).table := by
    rw [table_draftOf]
    refine Table.holds_foldl_settle hmeet nofun ?_
    intro q hq
    obtain ⟨name, role, hrange⟩ := range_mem_contributions hq
    exact hgiven name role _ hrange
  rw [accepted, SortedMap.get?_mapValues] at hc
  obtain ⟨entry, hentry, rfl⟩ := Option.map_eq_some_iff.mp hc
  exact htable p entry hentry

/-! The whole. -/

namespace Grammar

/-- The relation and the table of bounds fit the known classes and each other. -/
structure WellFormed (g : Grammar) : Prop where
  size_eq : g.relation.size = g.vocabulary.size
  counted : g.relation.Counted
  pairs_lt : ∀ pair ∈ g.relation.pairs,
    pair.1 < g.vocabulary.size ∧ pair.2 < g.vocabulary.size
  keys_below : ∀ p ∈ g.bounds.keys, p.Below g.vocabulary.size
  sourceOf_allowed : ∀ id other, ⟨id, .sourceOf other⟩ ∈ g.bounds.keys →
    g.allowsId id other = true
  targetOf_allowed : ∀ id other, ⟨id, .targetOf other⟩ ∈ g.bounds.keys →
    g.allowsId other id = true
  aggregate_attaches : ∀ p ∈ g.bounds.keys, p.role.isAggregate = true →
    ∃ pair ∈ g.relation.pairs, pair.1 = p.classId ∨ pair.2 = p.classId
  ne_unbounded : ∀ p c, g.bounds.get? p = some c → c ≠ .unbounded

end Grammar

theorem exists_entry_of_mem_keys (h : p ∈ (accepted rules v strict).grammar.bounds.keys) :
    ∃ entry, (draftOf rules v strict).table.get? p = some entry := by
  rw [SortedMap.mem_keys] at h
  rw [accepted, SortedMap.get?_mapValues, Option.isSome_map] at h
  exact Option.isSome_iff_exists.mp h

/-- A bound is for known classes, and some rule gives it. -/
theorem exists_names_of_mem_keys (h : p ∈ (accepted rules v strict).grammar.bounds.keys) :
    ∃ name role, p.Names v name role ∧ contributions rules name role ≠ [] := by
  obtain ⟨entry, hentry⟩ := exists_entry_of_mem_keys h
  obtain ⟨name, role, hnames⟩ := exists_names_of_get? hentry
  exact ⟨name, role, hnames, (exists_entry_iff hnames).mp ⟨entry, hentry⟩⟩

theorem counted_relation : (draftOf rules v strict).relation.Counted := by
  rw [draftOf, Draft.relation_foldl_addRule]
  exact Relation.counted_foldl_insertPair _ (Relation.counted_empty _)

/-- Where nothing is reported, a class with a bound has a mark in its row or its column. -/
theorem exists_pair_of_entry (h : reported rules v strict = []) {entry : Entry}
    (hentry : (draftOf rules v strict).table.get? p = some entry) :
    ∃ pair ∈ (draftOf rules v strict).relation.pairs,
      pair.1 = p.classId ∨ pair.2 = p.classId := by
  obtain ⟨name, role, hnames⟩ := exists_names_of_get? hentry
  have hlt : p.classId < (draftOf rules v strict).relation.size := lt_size_relation hnames.name_eq
  have horphan : ¬Draft.isOrphan (draftOf rules v strict).relation p = true := by
    intro horphan
    have hmem := mem_orphans_iff.mpr ⟨p, entry, hentry, horphan, rfl⟩
    rw [h] at hmem
    cases hmem
  rw [Draft.isOrphan, Bool.and_eq_true, Bool.not_eq_true', Bool.not_eq_true', not_and_or,
    Bool.not_eq_false, Bool.not_eq_false, Relation.hasOutgoing_iff hlt,
    Relation.hasIncoming_iff hlt] at horphan
  rcases horphan with ⟨b, hb⟩ | ⟨a, ha⟩
  · exact ⟨(p.classId, b), Relation.mem_pairs.mpr hb, .inl rfl⟩
  · exact ⟨(a, p.classId), Relation.mem_pairs.mpr ha, .inr rfl⟩

theorem wellFormed_accepted (h : reported rules v strict = []) :
    (accepted rules v strict).grammar.WellFormed where
  size_eq := size_relation
  counted := counted_relation
  pairs_lt := by
    intro pair hpair
    have hcontains := Relation.contains_iff.mp (Relation.mem_pairs.mp hpair)
    rw [accepted, size_relation] at hcontains
    exact ⟨hcontains.1, hcontains.2.1⟩
  keys_below := by
    intro p hp
    obtain ⟨name, role, hnames, -⟩ := exists_names_of_mem_keys hp
    exact hnames.below
  sourceOf_allowed := by
    intro id other hp
    obtain ⟨a, role, hnames, hgiven⟩ := exists_names_of_mem_keys hp
    obtain ⟨b, hb, rfl⟩ := Option.map_eq_some_iff.mp hnames.role_eq
    have hknows := Position.exists_names_iff.mp ⟨_, hnames⟩
    exact (allowed_iff_contains hnames.name_eq hb).mpr
      (allowed_of_contributions.1 hknows hgiven)
  targetOf_allowed := by
    intro id other hp
    obtain ⟨a, role, hnames, hgiven⟩ := exists_names_of_mem_keys hp
    obtain ⟨b, hb, rfl⟩ := Option.map_eq_some_iff.mp hnames.role_eq
    have hknows := Position.exists_names_iff.mp ⟨_, hnames⟩
    exact (allowed_iff_contains hb hnames.name_eq).mpr
      (allowed_of_contributions.2 hknows hgiven)
  aggregate_attaches := by
    intro p hp _
    obtain ⟨entry, hentry⟩ := exists_entry_of_mem_keys hp
    exact exists_pair_of_entry h hentry
  ne_unbounded := by
    intro p c hc
    exact holds_of_get?
      (fun _ _ _ ha _ hmeet => Cardinality.ne_unbounded_of_intersect? hmeet ha)
      (fun _ _ _ => ne_unbounded_of_mem_contributions) hc

theorem wellFormed_of_compile {out : Compilation} (h : compile rules v strict = .ok out) :
    out.grammar.WellFormed := by
  obtain ⟨hreported, rfl⟩ := compile_eq_ok_iff.mp h
  exact wellFormed_accepted hreported

theorem valid_of_compile {out : Compilation} (h : compile rules v strict = .ok out)
    (hranged : ∀ rule ∈ rules, rule.WellRanged) {c : Cardinality}
    (hc : out.grammar.bounds.get? p = some c) : c.Valid := by
  obtain ⟨-, rfl⟩ := compile_eq_ok_iff.mp h
  exact holds_of_get? (fun _ _ _ _ _ hmeet => Cardinality.valid_of_intersect? hmeet)
    (fun _ _ _ => valid_of_mem_contributions hranged) hc

end AttachmentGrammar
