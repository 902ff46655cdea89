import AttachmentGrammar.Proofs.Grammar.Draft
/-!
The relation of a compiled grammar. Main statement: two known classes may attach exactly if some
attachment rule covers them with a token of each side; nothing else in the rules matters.
-/
namespace AttachmentGrammar

/-- The two sides of one attachment rule cover the two names. -/
def Statement.attaches (source target : String) : Statement → Prop
  | attachment sources targets =>
    (∃ t ∈ sources, t.pattern.covers source = true) ∧ ∃ t ∈ targets, t.pattern.covers target = true
  | sourceAggregate _ | targetAggregate _ => False

instance (source target : String) :
    (statement : Statement) → Decidable (statement.attaches source target)
  | .attachment _ _ => inferInstanceAs (Decidable (_ ∧ _))
  | .sourceAggregate _ | .targetAggregate _ => inferInstanceAs (Decidable False)

variable {v : Vocabulary} {s t : ClassId} {a b : String}

theorem Statement.mem_pairs {statement : Statement} (hs : v.name? s = some a)
    (ht : v.name? t = some b) : (s, t) ∈ statement.pairs v ↔ statement.attaches a b := by
  cases statement with
  | attachment sources targets =>
    rw [attaches, ← exists_mem_expandTokens hs, ← exists_mem_expandTokens ht]
    simp only [pairs, List.mem_flatMap, List.mem_singleton, Prod.mk.injEq, Prod.exists]
    constructor
    · intro h
      obtain ⟨_, range, hsource, _, range', htarget, rfl, rfl⟩ := h
      exact ⟨⟨range, hsource⟩, range', htarget⟩
    · intro h
      obtain ⟨⟨range, hsource⟩, range', htarget⟩ := h
      exact ⟨s, range, hsource, t, range', htarget, rfl, rfl⟩
  | sourceAggregate sources => simp [pairs, attaches]
  | targetAggregate targets => simp [pairs, attaches]

/-- The pairs of a statement lie in the table. -/
theorem Statement.lt_size_of_mem_pairs {statement : Statement} (h : (s, t) ∈ statement.pairs v) :
    s < v.size ∧ t < v.size := by
  cases statement with
  | attachment sources targets =>
    simp only [pairs, List.mem_flatMap, List.mem_singleton, Prod.mk.injEq, Prod.exists] at h
    obtain ⟨_, range, hsource, _, range', htarget, rfl, rfl⟩ := h
    obtain ⟨_, hs, -⟩ := mem_expandTokens.mp hsource
    obtain ⟨_, ht, -⟩ := mem_expandTokens.mp htarget
    exact ⟨Vocabulary.lt_size hs, Vocabulary.lt_size ht⟩
  | sourceAggregate sources => simp [pairs] at h
  | targetAggregate targets => simp [pairs] at h

theorem Draft.contains_relation {rules : List Rule} {strict : Bool} (hs : v.name? s = some a)
    (ht : v.name? t = some b) : (draftOf rules v strict).relation.contains s t = true ↔
      ∃ rule ∈ rules, rule.statement.attaches a b := by
  have hlt : ∀ p ∈ rules.flatMap fun rule => rule.statement.pairs v,
      p.1 < (Draft.empty v).relation.size ∧ p.2 < (Draft.empty v).relation.size := by
    intro p hp
    obtain ⟨rule, -, hp⟩ := List.mem_flatMap.mp hp
    exact Statement.lt_size_of_mem_pairs hp
  rw [draftOf, relation_foldl_addRule, Relation.contains_foldl_insertPair _ _ hlt]
  simp only [empty, Relation.contains_empty, List.mem_flatMap, Statement.mem_pairs hs ht,
    Bool.false_eq_true, or_false]

theorem Grammar.allows_iff_ids {g : Grammar} : g.allows a b = true ↔
    ∃ s t, g.vocabulary.name? s = some a ∧ g.vocabulary.name? t = some b ∧
      g.relation.contains s t = true := by
  simp only [← Vocabulary.id?_eq_some_iff, allows, classId?, allowsId]
  cases g.vocabulary.id? a <;> cases g.vocabulary.id? b <;> simp

/-- The compiled relation is the union of the attachment rules. -/
theorem compile_allows {rules : List Rule} {strict : Bool} {out : Compilation}
    (h : compile rules v strict = .ok out) (a b : String) : out.grammar.allows a b = true ↔
      a ∈ v.names ∧ b ∈ v.names ∧ ∃ rule ∈ rules, rule.statement.attaches a b := by
  obtain ⟨-, hvocabulary, hrelation, -⟩ := compile_eq_ok h
  rw [Grammar.allows_iff_ids, hvocabulary, hrelation]
  constructor
  · intro h
    obtain ⟨s, t, hs, ht, hcontains⟩ := h
    exact ⟨Vocabulary.mem_names_iff.mpr ⟨s, hs⟩, Vocabulary.mem_names_iff.mpr ⟨t, ht⟩,
      (Draft.contains_relation hs ht).mp hcontains⟩
  · intro h
    obtain ⟨ha, hb, hattaches⟩ := h
    obtain ⟨s, hs⟩ := Vocabulary.mem_names_iff.mp ha
    obtain ⟨t, ht⟩ := Vocabulary.mem_names_iff.mp hb
    exact ⟨s, t, hs, ht, (Draft.contains_relation hs ht).mpr hattaches⟩

def tierRules : List Rule := [
  ⟨1, .attachment [⟨⟨"ap*"⟩, some (.atMost 2)⟩] [⟨⟨"*p*"⟩, none⟩, ⟨⟨"cache"⟩, none⟩]⟩,
  ⟨2, .attachment [⟨⟨"api"⟩, none⟩] [⟨⟨"db"⟩, none⟩]⟩,
  ⟨3, .targetAggregate [⟨⟨"*"⟩, some (.atLeast 1)⟩]⟩]

/-- Two rules for one class, a pattern without classes, and a bound on every class. -/
theorem compile_allows_tiers : ∃ out,
    compile tierRules (.ofNames ["db", "app", "api"]) false = .ok out ∧
      out.grammar.allows "app" "api" = true ∧ out.grammar.allows "api" "db" = true ∧
        ¬out.grammar.allows "app" "db" = true := by
  refine ⟨_, rfl, ?_⟩
  have hallows := @compile_allows (.ofNames ["db", "app", "api"]) tierRules false _ rfl
  refine ⟨?_, ?_, ?_⟩
  · exact (hallows "app" "api").mpr (by decide +kernel)
  · exact (hallows "api" "db").mpr (by decide +kernel)
  · intro h
    exact absurd ((hallows "app" "db").mp h) (by decide +kernel)

end AttachmentGrammar
