import AttachmentGrammar.Proofs.Grammar.Allowed
import AttachmentGrammar.Proofs.Grammar.History
import AttachmentGrammar.Proofs.Grammar.Outcome
/-!
What can be wrong with the ranges of a class in a role. Main statements: a conflict is reported for
a class in a role exactly if its ranges have no count in common, between a range and the
intersection of some that come before it; and an orphan exactly if the class has a range and
attaches nowhere, once, and for all its outgoing or all its incoming attachments.
-/
namespace AttachmentGrammar

open CompileError (ofKind mem_ofKind)
open Table (demandsAt)
open Cardinality (Agree narrowest)

def Rule.WellRanged (rule : Rule) : Prop :=
  ∀ t ∈ rule.statement.sources ++ rule.statement.targets, ∀ c ∈ t.cardinality, c.Valid

instance (rule : Rule) : Decidable rule.WellRanged :=
  inferInstanceAs (Decidable (∀ t ∈ rule.statement.sources ++ rule.statement.targets,
    ∀ c ∈ t.cardinality, c.Valid))

/-- Some rule lets a known class attach to a known class. -/
def Allowed (rules : List Rule) (v : Vocabulary) (source target : String) : Prop :=
  source ∈ v.names ∧ target ∈ v.names ∧ ∃ rule ∈ rules, rule.statement.attaches source target

def Isolated (rules : List Rule) (v : Vocabulary) (name : String) : Prop :=
  ∀ other, ¬Allowed rules v name other ∧ ¬Allowed rules v other name

/-- The ranges of a class in a role have no count in common. -/
def Conflicting (rules : List Rule) (v : Vocabulary) (name : String) (role : Role String) : Prop :=
  v.Knows name role ∧ ¬∃ n, ∀ c ∈ contributions rules name role, c.contains n = true

/-- A class has a range in a role and attaches nowhere. -/
def Orphaned (rules : List Rule) (v : Vocabulary) (name : String) (role : Role String) : Prop :=
  v.Knows name role ∧ contributions rules name role ≠ [] ∧ Isolated rules v name

/-- The class and the role that an error is about. -/
def CompileError.key? : CompileError → Option (String × Role String)
  | unmatchedPattern _ _ _ => none
  | conflictingCardinality name role _ _ _ _ | orphanCardinality name role _ _ => some (name, role)

/-- A range is the intersection of contributions, and the lines are those of the contributions. -/
structure Intersects (taken : List Contribution) (bound : Cardinality) (lines : List Nat) :
    Prop where
  bound_eq : narrowest (taken.map Contribution.range) = some bound
  lines_eq : lines = (taken.map Contribution.line).eraseDups

variable {rules : List Rule} {v : Vocabulary} {strict : Bool} {name : String} {role : Role String}
  {p : Position}

/-! What is asked of a class in a role. -/

theorem exists_names {q : Demand} (h : q ∈ rules.flatMap (Rule.demands v)) :
    ∃ name role, q.position.Names v name role := by
  obtain ⟨rule, -, hq⟩ := List.mem_flatMap.mp h
  exact exists_names_of_mem_demands hq

theorem valid_of_mem_contributions (hranged : ∀ rule ∈ rules, rule.WellRanged) {c : Cardinality}
    (h : c ∈ contributions rules name role) : c.Valid := by
  obtain ⟨rule, hrule, hc⟩ := List.mem_flatMap.mp h
  obtain ⟨t, ht, hbound⟩ := List.mem_filterMap.mp hc
  have htoken : t ∈ rule.statement.sources ++ rule.statement.targets := by
    rw [List.mem_append]
    cases hstatement : rule.statement <;> cases role <;>
      simp only [Statement.tokensFor, hstatement] at ht <;>
        grind [Statement.sources, Statement.targets]
  exact hranged rule hrule t htoken c (Option.mem_filter_iff.mp hbound).1

theorem agree_asked_iff (hranged : ∀ rule ∈ rules, rule.WellRanged) (h : p.Names v name role) :
    Agree (asked (rules.flatMap (Rule.demands v)) p) ↔
      ∃ n, ∀ c ∈ contributions rules name role, c.contains n = true := by
  have hvalid : ∀ c ∈ asked (rules.flatMap (Rule.demands v)) p, c.Valid := fun c hc =>
    valid_of_mem_contributions hranged ((mem_asked_contributions h.name_eq h.role_eq).mp hc)
  rw [Cardinality.agree_iff hvalid]
  simp only [mem_asked_contributions h.name_eq h.role_eq]

theorem history_eq_nil_iff : history rules name role = [] ↔ contributions rules name role = [] := by
  simp only [List.eq_nil_iff_forall_not_mem, mem_contributions_iff, not_exists]
  constructor
  · exact fun h c line => h ⟨line, c⟩
  · exact fun h c => h c.range c.line

/-- What an entry at a named position records are contributions in their order. -/
theorem exists_intersects_of_records {entry : Entry} {taken : List Demand}
    {done : List Contribution} (hrecords : entry.Records taken)
    (hsub : taken.Sublist (done.map (Contribution.demand p))) :
    ∃ contributed, taken = contributed.map (Contribution.demand p) ∧ contributed.Sublist done ∧
      Intersects contributed entry.bound entry.lines := by
  obtain ⟨contributed, hcontributed, rfl⟩ := List.sublist_map_iff.mp hsub
  refine ⟨contributed, rfl, hcontributed, ?_, ?_⟩
  · have hbound := hrecords.bound_eq
    rwa [List.map_map] at hbound
  · have hlines := hrecords.lines_eq
    rwa [List.map_map] at hlines

/-! Conflicts. -/

theorem mem_conflicts_iff {e : CompileError} : e ∈ ofKind .conflict (reported rules v strict) ↔
    ∃ c ∈ Table.clashes .empty (rules.flatMap (Rule.demands v)), c.error v = e := by
  rw [ofKind_conflict_reported, List.mem_map]

theorem exists_names_of_clash {c : Clash}
    (h : c ∈ Table.clashes .empty (rules.flatMap (Rule.demands v))) :
    ∃ name role, c.demand.position.Names v name role := by
  obtain ⟨before, after, hsplit, -⟩ := (Table.mem_clashes _ _).mp h
  have hdemand : c.demand ∈ rules.flatMap (Rule.demands v) := by
    rw [hsplit]
    exact List.mem_append_right _ List.mem_cons_self
  exact exists_names hdemand

theorem Clash.key?_error {c : Clash} (h : c.demand.position.Names v name role) :
    (c.error v).key? = some (name, role) := by
  rw [Clash.error, CompileError.key?, h.className_eq, h.roleName_eq]

theorem mem_conflict_keys_iff (hranged : ∀ rule ∈ rules, rule.WellRanged) :
    some (name, role) ∈ (ofKind .conflict (reported rules v strict)).map CompileError.key? ↔
      Conflicting rules v name role := by
  simp only [List.mem_map, mem_conflicts_iff]
  constructor
  · intro h
    obtain ⟨_, ⟨c, hc, rfl⟩, hkey⟩ := h
    obtain ⟨name', role', hnames⟩ := exists_names_of_clash hc
    rw [Clash.key?_error hnames] at hkey
    obtain ⟨rfl, rfl⟩ := Prod.mk.inj (Option.some.inj hkey)
    refine ⟨Position.exists_names_iff.mp ⟨_, hnames⟩, ?_⟩
    rw [← agree_asked_iff hranged hnames]
    intro hagree
    exact (Table.agree_iff_forall_clashes .empty _ _).mp hagree c hc rfl
  · intro h
    obtain ⟨hknows, hnone⟩ := h
    obtain ⟨p, hnames⟩ := Position.exists_names_iff.mpr hknows
    rw [← agree_asked_iff hranged hnames] at hnone
    have hclash : ¬∀ c ∈ Table.clashes .empty (rules.flatMap (Rule.demands v)),
        c.demand.position ≠ p := fun hall =>
      hnone ((Table.agree_iff_forall_clashes .empty _ p).mpr hall)
    simp only [Classical.not_forall, ne_eq, Classical.not_not, exists_prop] at hclash
    obtain ⟨c, hc, rfl⟩ := hclash
    exact ⟨c.error v, ⟨c, hc, rfl⟩, Clash.key?_error hnames⟩

/-- A clash is between a contribution and the intersection of some of those before it. -/
theorem exists_history_of_clash {c : Clash} (hnames : c.demand.position.Names v name role)
    (h : c ∈ Table.clashes .empty (rules.flatMap (Rule.demands v))) :
    (∀ n, ¬(c.held.bound.contains n = true ∧ c.demand.range.contains n = true)) ∧
      ∃ before after taken,
        history rules name role = before ++ ⟨c.demand.line, c.demand.range⟩ :: after ∧
          taken.Sublist before ∧ Intersects taken c.held.bound c.held.lines := by
  obtain ⟨before, after, hsplit, hclash⟩ := (Table.mem_clashes _ _).mp h
  have hheld : (before.foldl Table.settle .empty).get? c.demand.position = some c.held ∧
      c.held.bound.intersect? c.demand.range = none := by
    rw [Table.clash?] at hclash
    split at hclash
    · cases hclash
    · rename_i entry hentry
      split at hclash
      · rename_i hnone
        obtain rfl : entry = c.held := congrArg Clash.held (Option.some.inj hclash)
        exact ⟨hentry, hnone⟩
      · cases hclash
  refine ⟨Cardinality.intersect?_eq_none_iff.mp hheld.2, ?_⟩
  have hsound := Table.sound_foldl_settle Table.sound_empty before
  obtain ⟨taken, hsub, hrecords, -⟩ := hsound.some_at _ _ hheld.1
  -- the demands at the position, before and from the one that clashes
  have hat := demandsAt_flatMap_demands rules hnames
  rw [hsplit, demandsAt_append, eq_comm, List.map_eq_append_iff] at hat
  obtain ⟨done, rest, hhistory, hdone, hrest⟩ := hat
  have hfirst : demandsAt c.demand.position (c.demand :: after) =
      c.demand :: demandsAt c.demand.position after := by
    simp [demandsAt]
  rw [hfirst, List.map_eq_cons_iff] at hrest
  obtain ⟨first, later, rfl, hdemand, -⟩ := hrest
  rw [List.nil_append, ← hdone] at hsub
  obtain ⟨contributed, -, hcontributed, hintersects⟩ := exists_intersects_of_records hrecords hsub
  refine ⟨done, later, contributed, ?_, hcontributed, hintersects⟩
  rw [hhistory, ← hdemand]
  rfl

/-! Orphans. -/

theorem allowed_iff_contains {a b : ClassId} {source target : String} (ha : v.name? a = some source)
    (hb : v.name? b = some target) :
    (draftOf rules v strict).relation.contains a b = true ↔ Allowed rules v source target := by
  rw [Draft.contains_relation ha hb, Allowed, and_iff_right (Vocabulary.mem_names_iff.mpr ⟨a, ha⟩),
    and_iff_right (Vocabulary.mem_names_iff.mpr ⟨b, hb⟩)]

theorem size_relation : (draftOf rules v strict).relation.size = v.size := by
  rw [draftOf, Draft.relation_foldl_addRule, Relation.size_foldl_insertPair]
  rfl

theorem exists_name_of_lt {i : ClassId} (h : i < v.size) : ∃ name, v.name? i = some name :=
  ⟨_, List.getElem?_eq_getElem h⟩

theorem lt_size_relation (h : v.name? p.classId = some name) :
    p.classId < (draftOf rules v strict).relation.size := by
  rw [size_relation]
  exact Vocabulary.lt_size h

/-- A row has a mark exactly if the class may attach to some class. -/
theorem hasOutgoing_iff_allowed (h : v.name? p.classId = some name) :
    (draftOf rules v strict).relation.hasOutgoing p.classId = true ↔
      ∃ other, Allowed rules v name other := by
  rw [Relation.hasOutgoing_iff (lt_size_relation h)]
  constructor
  · intro hmark
    obtain ⟨b, hb⟩ := hmark
    have hbound := (Relation.contains_iff.mp hb).2.1
    rw [size_relation] at hbound
    obtain ⟨other, hother⟩ := exists_name_of_lt hbound
    exact ⟨other, (allowed_iff_contains h hother).mp hb⟩
  · intro hallowed
    obtain ⟨other, hallowed⟩ := hallowed
    obtain ⟨b, hb⟩ := Vocabulary.mem_names_iff.mp hallowed.2.1
    exact ⟨b, (allowed_iff_contains h hb).mpr hallowed⟩

/-- A column has a mark exactly if some class may attach to the class. -/
theorem hasIncoming_iff_allowed (h : v.name? p.classId = some name) :
    (draftOf rules v strict).relation.hasIncoming p.classId = true ↔
      ∃ other, Allowed rules v other name := by
  rw [Relation.hasIncoming_iff (lt_size_relation h)]
  constructor
  · intro hmark
    obtain ⟨a, ha⟩ := hmark
    have hbound := (Relation.contains_iff.mp ha).1
    rw [size_relation] at hbound
    obtain ⟨other, hother⟩ := exists_name_of_lt hbound
    exact ⟨other, (allowed_iff_contains hother h).mp ha⟩
  · intro hallowed
    obtain ⟨other, hallowed⟩ := hallowed
    obtain ⟨a, ha⟩ := Vocabulary.mem_names_iff.mp hallowed.1
    exact ⟨a, (allowed_iff_contains ha h).mpr hallowed⟩

/-- A class attaches nowhere exactly if its row and its column have no mark. -/
theorem isOrphan_iff (h : v.name? p.classId = some name) :
    Draft.isOrphan (draftOf rules v strict).relation p = true ↔ Isolated rules v name := by
  rw [Draft.isOrphan, Bool.and_eq_true, Bool.not_eq_true', Bool.not_eq_true', ← Bool.not_eq_true,
    ← Bool.not_eq_true, hasOutgoing_iff_allowed h, hasIncoming_iff_allowed h, Isolated, forall_and,
    not_exists, not_exists]

def Entry.orphanError (v : Vocabulary) (p : Position) (entry : Entry) : CompileError :=
  .orphanCardinality (v.name p.classId) (p.role.map v.name) entry.bound (entry.lines.headD 0)

theorem orphan?_eq_some_iff {r : Relation} {entry : Entry} {e : CompileError} :
    Draft.orphan? v r p entry = some e ↔ Draft.isOrphan r p = true ∧ entry.orphanError v p = e := by
  rw [Draft.orphan?]
  split
  · rename_i horphan
    rw [Option.some.injEq, and_iff_right horphan]
    rfl
  · rename_i horphan
    simp [horphan]

theorem mem_orphans_iff {e : CompileError} : e ∈ ofKind .orphan (reported rules v strict) ↔
    ∃ p entry, (draftOf rules v strict).table.get? p = some entry ∧
      Draft.isOrphan (draftOf rules v strict).relation p = true ∧ entry.orphanError v p = e := by
  simp only [ofKind_orphan_reported, Draft.orphans, List.mem_filterMap, orphan?_eq_some_iff,
    Prod.exists, SortedMap.mem_toList_iff]

theorem Entry.key?_orphanError {entry : Entry} (h : p.Names v name role) :
    (entry.orphanError v p).key? = some (name, role) := by
  rw [orphanError, CompileError.key?, h.className_eq, h.roleName_eq]

theorem sound_draftOf : Table.Sound (draftOf rules v strict).table
    (rules.flatMap (Rule.demands v)) := by
  rw [table_draftOf]
  exact Table.sound_foldl_settle Table.sound_empty _

/-- The table has entries at named positions only, and there exactly where a range is given. -/
theorem exists_names_of_get? {entry : Entry}
    (h : (draftOf rules v strict).table.get? p = some entry) :
    ∃ name role, p.Names v name role := by
  have hasked : ((draftOf rules v strict).table.get? p).isSome = true := by
    rw [h, Option.isSome_some]
  rw [table_draftOf, Table.isSome_get?_foldl_settle] at hasked
  obtain ⟨q, hq, rfl⟩ := hasked.resolve_left Bool.false_ne_true
  exact exists_names hq

theorem exists_entry_iff (h : p.Names v name role) :
    (∃ entry, (draftOf rules v strict).table.get? p = some entry) ↔
      contributions rules name role ≠ [] := by
  have hdemands : (∃ q ∈ rules.flatMap (Rule.demands v), q.position = p) ↔
      demandsAt p (rules.flatMap (Rule.demands v)) ≠ [] := by
    simp only [demandsAt, ne_eq, List.filter_eq_nil_iff, decide_eq_true_eq, Classical.not_forall,
      Classical.not_not, exists_prop]
  rw [← Option.isSome_iff_exists, table_draftOf, Table.isSome_get?_foldl_settle, hdemands,
    demandsAt_flatMap_demands rules h, ne_eq, List.map_eq_nil_iff, history_eq_nil_iff]
  exact or_iff_right Bool.false_ne_true

theorem mem_orphan_keys_iff :
    some (name, role) ∈ (ofKind .orphan (reported rules v strict)).map CompileError.key? ↔
      Orphaned rules v name role := by
  simp only [List.mem_map, mem_orphans_iff]
  constructor
  · intro h
    obtain ⟨_, ⟨p, entry, hentry, horphan, rfl⟩, hkey⟩ := h
    obtain ⟨name', role', hnames⟩ := exists_names_of_get? hentry
    rw [Entry.key?_orphanError hnames] at hkey
    obtain ⟨rfl, rfl⟩ := Prod.mk.inj (Option.some.inj hkey)
    exact ⟨Position.exists_names_iff.mp ⟨p, hnames⟩, (exists_entry_iff hnames).mp ⟨entry, hentry⟩,
      (isOrphan_iff hnames.name_eq).mp horphan⟩
  · intro h
    obtain ⟨hknows, hgiven, hisolated⟩ := h
    obtain ⟨p, hnames⟩ := Position.exists_names_iff.mpr hknows
    obtain ⟨entry, hentry⟩ := (exists_entry_iff hnames).mpr hgiven
    exact ⟨_, ⟨p, entry, hentry, (isOrphan_iff hnames.name_eq).mpr hisolated, rfl⟩,
      Entry.key?_orphanError hnames⟩

theorem nodup_orphan_keys :
    ((ofKind .orphan (reported rules v strict)).map CompileError.key?).Nodup := by
  rw [ofKind_orphan_reported, List.Nodup, List.pairwise_map, Draft.orphans,
    List.pairwise_filterMap]
  refine (draftOf rules v strict).table.increasing.imp_of_mem ?_
  intro a a' ha ha' hlt e he e' he' hkey
  obtain ⟨p, entry⟩ := a
  obtain ⟨p', entry'⟩ := a'
  obtain ⟨-, rfl⟩ := orphan?_eq_some_iff.mp he
  obtain ⟨-, rfl⟩ := orphan?_eq_some_iff.mp he'
  obtain ⟨name, role, hnames⟩ := exists_names_of_get? (SortedMap.mem_toList_iff.mp ha)
  obtain ⟨name', role', hnames'⟩ := exists_names_of_get? (SortedMap.mem_toList_iff.mp ha')
  rw [Entry.key?_orphanError hnames, Entry.key?_orphanError hnames'] at hkey
  obtain ⟨rfl, rfl⟩ := Prod.mk.inj (Option.some.inj hkey)
  -- two entries of one key would be at one position
  rw [hnames.inj hnames', Std.compare_self] at hlt
  cases hlt

/-- A range towards a class, or from it, comes from a rule that lets the two attach. -/
theorem Statement.attaches_of_mem_tokensFor {statement : Statement} {t : Token} {other : String} :
    (t ∈ statement.tokensFor name (.sourceOf other) → statement.attaches name other) ∧
      (t ∈ statement.tokensFor name (.targetOf other) → statement.attaches other name) := by
  cases statement with
  | attachment sources targets =>
    constructor
    · intro h
      rw [tokensFor, List.mem_ite_nil_right] at h
      exact ⟨⟨t, List.mem_filter.mp h.2⟩, List.any_eq_true.mp h.1⟩
    · intro h
      rw [tokensFor, List.mem_ite_nil_right] at h
      exact ⟨List.any_eq_true.mp h.1, t, List.mem_filter.mp h.2⟩
  | sourceAggregate sources => simp [tokensFor]
  | targetAggregate targets => simp [tokensFor]

theorem allowed_of_contributions {other : String} :
    (v.Knows name (.sourceOf other) → contributions rules name (.sourceOf other) ≠ [] →
      Allowed rules v name other) ∧
    (v.Knows name (.targetOf other) → contributions rules name (.targetOf other) ≠ [] →
      Allowed rules v other name) := by
  have hgiving {role : Role String} (hgiven : contributions rules name role ≠ []) :
      ∃ rule ∈ rules, ∃ t, t ∈ rule.statement.tokensFor name role := by
    obtain ⟨c, hc⟩ := List.exists_mem_of_ne_nil _ hgiven
    obtain ⟨rule, hrule, hc⟩ := List.mem_flatMap.mp hc
    obtain ⟨t, ht, -⟩ := List.mem_filterMap.mp hc
    exact ⟨rule, hrule, t, ht⟩
  constructor
  · intro hknows hgiven
    obtain ⟨rule, hrule, t, ht⟩ := hgiving hgiven
    exact ⟨hknows.name_known, hknows.other_known other rfl, rule, hrule,
      Statement.attaches_of_mem_tokensFor.1 ht⟩
  · intro hknows hgiven
    obtain ⟨rule, hrule, t, ht⟩ := hgiving hgiven
    exact ⟨hknows.other_known other rfl, hknows.name_known, rule, hrule,
      Statement.attaches_of_mem_tokensFor.2 ht⟩

theorem Orphaned.isAggregate (h : Orphaned rules v name role) :
    role = .source ∨ role = .target := by
  obtain ⟨hknows, hgiven, hisolated⟩ := h
  cases role with
  | source => exact .inl rfl
  | target => exact .inr rfl
  | sourceOf other =>
    exact ((hisolated other).1 (allowed_of_contributions.1 hknows hgiven)).elim
  | targetOf other =>
    exact ((hisolated other).2 (allowed_of_contributions.2 hknows hgiven)).elim

/-- The bound of an orphan is the intersection of contributions, and its line is that of the first
contribution to the class in the role. -/
theorem exists_history_of_orphan {entry : Entry} (hnames : p.Names v name role)
    (h : (draftOf rules v strict).table.get? p = some entry) :
    ∃ first taken, (history rules name role).head? = some first ∧
      entry.lines.headD 0 = first.line ∧ (first :: taken).Sublist (history rules name role) ∧
        Intersects (first :: taken) entry.bound entry.lines := by
  obtain ⟨taken, hsub, hrecords, hhead⟩ := sound_draftOf.some_at p entry h
  rw [demandsAt_flatMap_demands rules hnames] at hsub hhead
  obtain ⟨contributed, rfl, hcontributed, hintersects⟩ :=
    exists_intersects_of_records hrecords hsub
  cases contributed with
  | nil => cases hrecords.bound_eq
  | cons first taken =>
    rw [List.map_cons, List.head?_cons, List.head?_map, eq_comm, Option.map_eq_some_iff] at hhead
    obtain ⟨first', hfirst, heq⟩ := hhead
    obtain rfl : first' = first := by
      obtain ⟨line, range⟩ := first
      obtain ⟨line', range'⟩ := first'
      obtain ⟨-, rfl, rfl⟩ := Demand.mk.inj heq
      rfl
    refine ⟨first', taken, hfirst, ?_, hcontributed, hintersects⟩
    rw [hintersects.lines_eq, List.map_cons, List.eraseDups_cons]
    rfl

end AttachmentGrammar
