import AttachmentGrammar.Proofs.Grammar.WellFormed
import AttachmentGrammar.Proofs.Validation.Checks
/-!
The views of a grammar. Main statement: whether two classes may attach is told alike by their names,
by their numbers, by the targets of the one, by the sources of the other and by the list of pairs;
the list of bounds holds exactly the bounds by name that do not hold every count; and every list
stands in the order of the names.
-/
namespace AttachmentGrammar

/-- First parts in order, and second parts in order where the first ones are equal. -/
def Lexicographic {α β : Type} [Ord α] [Ord β] (p q : α × β) : Prop :=
  compare p.1 q.1 = .lt ∨ p.1 = q.1 ∧ compare p.2 q.2 = .lt

instance {α β : Type} [Ord α] [Ord β] [DecidableEq α] (p q : α × β) :
    Decidable (Lexicographic p q) :=
  inferInstanceAs (Decidable (_ ∨ _))

theorem Vocabulary.map_snd_entries (v : Vocabulary) : v.entries.map (·.2) = v.names.toList := by
  rw [entries, List.map_map]
  exact List.zipIdx_map_fst 0 _

theorem Position.compare_eq_lt_iff {p q : Position} : compare p q = .lt ↔
    compare p.classId q.classId = .lt ∨ p.classId = q.classId ∧ compare p.role q.role = .lt := by
  have hlex : compare p q =
    (compare p.classId q.classId).then (compare p.role q.role) := rfl
  rw [hlex, Ordering.then_eq_lt, Nat.compare_eq_eq]

namespace Grammar

/-- All queries tell one relation and one table of bounds, and list them in the order of names. -/
structure ViewsAgree (g : Grammar) : Prop where
  allows_iff : ∀ s t, g.allows s t = true ↔
    ∃ i j, g.classId? s = some i ∧ g.classId? t = some j ∧ g.allowsId i j = true
  mem_targetsOf_iff : ∀ s t, t ∈ g.targetsOf s ↔ g.allows s t = true
  mem_sourcesOf_iff : ∀ s t, s ∈ g.sourcesOf t ↔ g.allows s t = true
  mem_pairs_iff : ∀ s t, (s, t) ∈ g.pairs ↔ g.allows s t = true
  targetsOf_increasing : ∀ s, (g.targetsOf s).Pairwise fun a b => compare a b = .lt
  sourcesOf_increasing : ∀ t, (g.sourcesOf t).Pairwise fun a b => compare a b = .lt
  pairs_increasing : g.pairs.Pairwise Lexicographic
  length_pairs_eq : g.pairs.length = g.relation.count
  mem_declaredBounds_iff : ∀ name role bound, (name, role, bound) ∈ g.declaredBounds ↔
    g.bound name role = bound ∧ bound ≠ .unbounded
  declaredBounds_increasing :
    (g.declaredBounds.map fun b => (b.1, b.2.1)).Pairwise Lexicographic
  length_declaredBounds_eq : g.declaredBounds.length = g.boundCount

variable {g : Grammar} {s t name : String} {role : Role String} {bound : Cardinality}

/-! Who may attach to whom. -/

theorem allows_iff_allowsId : g.allows s t = true ↔
    ∃ i j, g.classId? s = some i ∧ g.classId? t = some j ∧ g.allowsId i j = true := by
  rw [allows]
  cases g.classId? s <;> cases g.classId? t <;> simp

/-- The classes picked from the entries are those with a number that is picked. -/
theorem mem_names_filter (keep : ClassId → Bool) :
    name ∈ (g.vocabulary.entries.filter fun e => keep e.1).map (·.2) ↔
      ∃ i, g.classId? name = some i ∧ keep i = true := by
  simp only [List.mem_map, List.mem_filter, Prod.exists, Vocabulary.mem_entries,
    ← Vocabulary.id?_eq_some_iff, exists_eq_right, classId?]

theorem mem_targetsOf : t ∈ g.targetsOf s ↔ g.allows s t = true := by
  rw [allows_iff_allowsId, targetsOf]
  cases g.classId? s with
  | none => simp
  | some i =>
    simp only [mem_names_filter (g.allowsId i), Option.some.injEq, exists_and_left,
      exists_eq_left']

theorem mem_sourcesOf : s ∈ g.sourcesOf t ↔ g.allows s t = true := by
  rw [allows_iff_allowsId, sourcesOf]
  cases g.classId? t with
  | none => simp
  | some j =>
    simp only [mem_names_filter (g.allowsId · j), Option.some.injEq, exists_and_left,
      exists_eq_left']

/-- Names picked from the entries stand in order. -/
theorem increasing_names (keep : ClassId × String → Bool) :
    ((g.vocabulary.entries.filter keep).map (·.2)).Pairwise fun a b => compare a b = .lt := by
  refine g.vocabulary.names.increasing.sublist ?_
  rw [← Vocabulary.map_snd_entries]
  exact List.filter_sublist.map _

theorem increasing_targetsOf (s : String) :
    (g.targetsOf s).Pairwise fun a b => compare a b = .lt := by
  rw [targetsOf]
  split
  · exact List.Pairwise.nil
  · exact increasing_names _

theorem increasing_sourcesOf (t : String) :
    (g.sourcesOf t).Pairwise fun a b => compare a b = .lt := by
  rw [sourcesOf]
  split
  · exact List.Pairwise.nil
  · exact increasing_names _

/-! The pairs. -/

theorem WellFormed.exists_names_of_mem_pairs (h : g.WellFormed) {pair : ClassId × ClassId}
    (hpair : pair ∈ g.relation.pairs) :
    ∃ a b, g.vocabulary.name? pair.1 = some a ∧ g.vocabulary.name? pair.2 = some b := by
  obtain ⟨hfirst, hsecond⟩ := h.pairs_lt pair hpair
  obtain ⟨a, ha⟩ := exists_name_of_lt hfirst
  obtain ⟨b, hb⟩ := exists_name_of_lt hsecond
  exact ⟨a, b, ha, hb⟩

theorem mem_pairs (h : g.WellFormed) : (s, t) ∈ g.pairs ↔ g.allows s t = true := by
  rw [allows_iff_ids, pairs, List.mem_map]
  constructor
  · intro hmem
    obtain ⟨⟨i, j⟩, hpair, heq⟩ := hmem
    obtain ⟨a, b, ha, hb⟩ := h.exists_names_of_mem_pairs hpair
    obtain ⟨rfl, rfl⟩ := Prod.mk.inj heq
    rw [Vocabulary.name_eq ha, Vocabulary.name_eq hb]
    exact ⟨i, j, ha, hb, Relation.mem_pairs.mp hpair⟩
  · intro hallows
    obtain ⟨i, j, hs, ht, hcontains⟩ := hallows
    exact ⟨(i, j), Relation.mem_pairs.mpr hcontains,
      Prod.ext (Vocabulary.name_eq hs) (Vocabulary.name_eq ht)⟩

theorem increasing_pairs (h : g.WellFormed) : g.pairs.Pairwise Lexicographic := by
  rw [pairs, List.pairwise_map]
  refine g.relation.increasing_pairs.imp_of_mem ?_
  intro p q hp hq hlt
  obtain ⟨a, b, ha, hb⟩ := h.exists_names_of_mem_pairs hp
  obtain ⟨a', b', ha', hb'⟩ := h.exists_names_of_mem_pairs hq
  rcases hlt with hlt | ⟨heq, hlt⟩
  · exact .inl (Vocabulary.compare_name ha ha' (Nat.compare_eq_lt.mpr hlt))
  · exact .inr ⟨congrArg g.vocabulary.name heq,
      Vocabulary.compare_name hb hb' (Nat.compare_eq_lt.mpr hlt)⟩

/-! The bounds. -/

theorem WellFormed.exists_names_of_get? (h : g.WellFormed) {p : Position}
    (hp : g.bounds.get? p = some bound) : ∃ name role, p.Names g.vocabulary name role := by
  have hkey : p ∈ g.bounds.keys := SortedMap.mem_keys.mpr (Option.isSome_iff_exists.mpr ⟨_, hp⟩)
  exact (h.keys_below p hkey).exists_names

theorem declaredByName?_eq_some_iff_names : g.declaredByName? name role = some bound ↔
    ∃ p : Position, p.Names g.vocabulary name role ∧ g.bounds.get? p = some bound := by
  constructor
  · intro h
    obtain ⟨id, hid, key, hkey, hget⟩ : ∃ id, g.classId? name = some id ∧
        ∃ key, role.mapM? g.classId? = some key ∧ g.declared? id key = some bound := by
      simpa [declaredByName?, Option.bind_eq_some_iff] using h
    exact ⟨⟨id, key⟩, ⟨Vocabulary.id?_eq_some_iff.mp hid, Role.mapM?_id?_iff.mp hkey⟩, hget⟩
  · intro h
    obtain ⟨⟨id, key⟩, hnames, hget⟩ := h
    exact (declaredByName?_eq_some_iff hnames.name_eq).mpr ⟨key, hnames.role_eq, hget⟩

theorem mem_declaredBounds (h : g.WellFormed) :
    (name, role, bound) ∈ g.declaredBounds ↔ g.declaredByName? name role = some bound := by
  rw [declaredByName?_eq_some_iff_names, declaredBounds, List.mem_map]
  constructor
  · intro hbound
    obtain ⟨⟨p, c⟩, hmem, heq⟩ := hbound
    have hget := SortedMap.mem_toList_iff.mp hmem
    obtain ⟨a, key, hnames⟩ := h.exists_names_of_get? hget
    obtain ⟨rfl, hrest⟩ := Prod.mk.inj heq
    obtain ⟨rfl, rfl⟩ := Prod.mk.inj hrest
    rw [hnames.className_eq, roleName, hnames.roleName_eq]
    exact ⟨p, hnames, hget⟩
  · intro hbound
    obtain ⟨p, hnames, hget⟩ := hbound
    exact ⟨(p, bound), SortedMap.mem_toList_iff.mpr hget,
      Prod.ext hnames.className_eq (Prod.ext hnames.roleName_eq rfl)⟩

/-- Since no range of the table holds every count, the bound by name tells whether there is one. -/
theorem bound_eq_iff (h : g.WellFormed) :
    g.bound name role = bound ∧ bound ≠ .unbounded ↔ g.declaredByName? name role = some bound := by
  rw [Grammar.bound]
  cases hdeclared : g.declaredByName? name role with
  | none =>
    constructor
    · intro hbound
      exact (hbound.2 hbound.1.symm).elim
    · intro hnone
      cases hnone
  | some c =>
    obtain ⟨p, -, hget⟩ := declaredByName?_eq_some_iff_names.mp hdeclared
    rw [Option.getD_some, Option.some.injEq, and_iff_left_iff_imp]
    intro heq
    exact heq ▸ h.ne_unbounded p c hget

theorem increasing_declaredBounds (h : g.WellFormed) :
    (g.declaredBounds.map fun b => (b.1, b.2.1)).Pairwise Lexicographic := by
  rw [declaredBounds, List.map_map, List.pairwise_map]
  refine g.bounds.increasing.imp_of_mem ?_
  intro e e' he he' hlt
  obtain ⟨p, c⟩ := e
  obtain ⟨q, d⟩ := e'
  obtain ⟨a, role, hnames⟩ := h.exists_names_of_get? (SortedMap.mem_toList_iff.mp he)
  obtain ⟨b, role', hnames'⟩ := h.exists_names_of_get? (SortedMap.mem_toList_iff.mp he')
  have hrole (hlt : compare p.role q.role = .lt) : compare role role' = .lt :=
    Role.compare_names hnames.role_eq hnames'.role_eq hlt
  rw [← hnames.roleName_eq, ← hnames'.roleName_eq] at hrole
  rcases Position.compare_eq_lt_iff.mp hlt with hclass | ⟨heq, hlt⟩
  · exact .inl (Vocabulary.compare_name hnames.name_eq hnames'.name_eq hclass)
  · exact .inr ⟨congrArg g.vocabulary.name heq, hrole hlt⟩

/-! The whole. -/

theorem viewsAgree (h : g.WellFormed) : g.ViewsAgree where
  allows_iff _ _ := allows_iff_allowsId
  mem_targetsOf_iff _ _ := mem_targetsOf
  mem_sourcesOf_iff _ _ := mem_sourcesOf
  mem_pairs_iff _ _ := mem_pairs h
  targetsOf_increasing := increasing_targetsOf
  sourcesOf_increasing := increasing_sourcesOf
  pairs_increasing := increasing_pairs h
  length_pairs_eq := by rw [pairs, List.length_map, h.counted.length_pairs]
  mem_declaredBounds_iff _ _ _ := (mem_declaredBounds h).trans (bound_eq_iff h).symm
  declaredBounds_increasing := increasing_declaredBounds h
  length_declaredBounds_eq := List.length_map _

end Grammar

theorem compile_viewsAgree {rules : List Rule} {v : Vocabulary} {strict : Bool} {out : Compilation}
    (h : compile rules v strict = .ok out) : out.grammar.ViewsAgree :=
  Grammar.viewsAgree (wellFormed_of_compile h)

def queueRules : List Rule := [
  ⟨1, .attachment [⟨⟨"*er"⟩, some (.atMost 2)⟩] [⟨⟨"queue"⟩, some (.atLeast 1)⟩]⟩,
  ⟨2, .attachment [⟨⟨"queue"⟩, none⟩] [⟨⟨"*er"⟩, none⟩]⟩,
  ⟨4, .targetAggregate [⟨⟨"queue"⟩, some (.atMost 9)⟩, ⟨⟨"*"⟩, some .unbounded⟩]⟩]

/-- The bounds of one class stand in the order of the roles. -/
theorem compile_viewsAgree_queues : ∃ out,
    compile queueRules (.ofNames ["writer", "queue", "reader"]) true = .ok out ∧
      out.grammar.pairs = [("queue", "reader"), ("queue", "writer"), ("reader", "queue"),
        ("writer", "queue")] ∧
      out.grammar.allows "writer" "queue" = true ∧
      "reader" ∈ out.grammar.sourcesOf "queue" ∧
      out.grammar.declaredBounds = [("queue", .target, .atMost 9),
        ("queue", .targetOf "reader", .atLeast 1), ("queue", .targetOf "writer", .atLeast 1),
        ("reader", .sourceOf "queue", .atMost 2), ("writer", .sourceOf "queue", .atMost 2)] ∧
      out.grammar.bound "queue" .target = .atMost 9 := by
  refine ⟨_, rfl, ?_⟩
  have hviews := @compile_viewsAgree queueRules (.ofNames ["writer", "queue", "reader"]) true _ rfl
  refine ⟨by decide +kernel, ?_, ?_, by decide +kernel, ?_⟩
  · exact (hviews.mem_pairs_iff _ _).mp (by decide +kernel)
  · exact (hviews.mem_sourcesOf_iff _ _).mpr (by decide +kernel)
  · exact ((hviews.mem_declaredBounds_iff "queue" .target (.atMost 9)).mp (by decide +kernel)).1

end AttachmentGrammar
