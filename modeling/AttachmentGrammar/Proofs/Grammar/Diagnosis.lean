import AttachmentGrammar.Proofs.Grammar.Faults
/-!
Why rules do not compile. Main statement: if no range is empty, rules fail to compile exactly if in
strict reading a token covers no class, if the ranges of some class in a role have no count in
common, or if a class that has a range attaches nowhere; and the errors name all of these, and
nothing else.
-/
namespace AttachmentGrammar

open CompileError (ofKind mem_ofKind)

/-- A token in its place. -/
structure Occurrence where
  line : Nat
  side : Side
  token : Token
  deriving DecidableEq, Repr

def Occurrence.error (o : Occurrence) : CompileError :=
  .unmatchedPattern o.line o.side o.token.pattern.text

def Rule.occurrences (rule : Rule) : List Occurrence :=
  rule.statement.sources.map (⟨rule.line, .left, ·⟩) ++
    rule.statement.targets.map (⟨rule.line, .right, ·⟩)

/-- The token covers no class. -/
def Token.Idle (v : Vocabulary) (t : Token) : Prop :=
  ∀ name ∈ v.names, t.pattern.covers name = false

instance (v : Vocabulary) (t : Token) : Decidable (t.Idle v) :=
  inferInstanceAs (Decidable (∀ name ∈ v.names.toList, t.pattern.covers name = false))

/-- The errors are those that the rules call for. -/
structure Diagnosis (rules : List Rule) (v : Vocabulary) (strict : Bool)
    (errors : List CompileError) : Prop where
  unmatched : ofKind .unmatched errors = if strict then
    ((rules.flatMap Rule.occurrences).filter fun o => o.token.Idle v).map Occurrence.error else []
  conflict_iff : ∀ name role,
    some (name, role) ∈ (ofKind .conflict errors).map CompileError.key? ↔
      Conflicting rules v name role
  conflict_between : ∀ name role existing lines incoming line,
    .conflictingCardinality name role existing lines incoming line ∈ errors →
      (∀ n, ¬(existing.contains n = true ∧ incoming.contains n = true)) ∧
        ∃ before after taken, history rules name role = before ++ ⟨line, incoming⟩ :: after ∧
          taken.Sublist before ∧ Intersects taken existing lines
  orphan_iff : ∀ name role,
    some (name, role) ∈ (ofKind .orphan errors).map CompileError.key? ↔ Orphaned rules v name role
  orphan_once : ((ofKind .orphan errors).map CompileError.key?).Nodup
  orphan_bound : ∀ name role bound line, .orphanCardinality name role bound line ∈ errors →
    (role = .source ∨ role = .target) ∧ ∃ first taken lines,
      (history rules name role).head? = some first ∧ line = first.line ∧
        (first :: taken).Sublist (history rules name role) ∧
          Intersects (first :: taken) bound lines

variable {rules : List Rule} {v : Vocabulary} {strict : Bool}

/-! Unmatched tokens. -/

theorem isEmpty_expand {t : Token} : (v.expand t.pattern).isEmpty = true ↔ t.Idle v := by
  rw [List.isEmpty_iff, List.eq_nil_iff_forall_not_mem]
  simp only [Vocabulary.mem_expand, Token.Idle, Vocabulary.mem_names_iff]
  constructor
  · intro h name hname
    obtain ⟨i, hi⟩ := hname
    exact Bool.eq_false_iff.mpr fun hcovers => h i ⟨name, hi, hcovers⟩
  · intro h i hi
    obtain ⟨name, hname, hcovers⟩ := hi
    rw [h name ⟨i, hname⟩] at hcovers
    cases hcovers

theorem Rule.map_error_unmatched (rule : Rule) : (rule.unmatched v).map Unmatched.error =
    (rule.occurrences.filter fun o => o.token.Idle v).map Occurrence.error := by
  have hside (side : Side) (tokens : List Token) :
      ((unmatchedPatterns v tokens).map (Unmatched.mk rule.line side)).map Unmatched.error =
        ((tokens.map (Occurrence.mk rule.line side)).filter fun o => o.token.Idle v).map
          Occurrence.error := by
    have hidle : (fun t : Token => (v.expand t.pattern).isEmpty) = fun t => decide (t.Idle v) := by
      funext t
      rw [Bool.eq_iff_iff, isEmpty_expand, decide_eq_true_eq]
    rw [unmatchedPatterns, hidle, List.filter_map, List.map_map, List.map_map, List.map_map]
    rfl
  rw [unmatched, occurrences, List.map_append, hside, hside, List.filter_append, List.map_append]

theorem ofKind_unmatched_eq : ofKind .unmatched (reported rules v strict) = if strict then
    ((rules.flatMap Rule.occurrences).filter fun o => o.token.Idle v).map Occurrence.error
    else [] := by
  rw [ofKind_unmatched_reported, List.map_flatMap, List.filter_flatMap, List.map_flatMap]
  simp only [Rule.map_error_unmatched]

/-! The whole. -/

theorem diagnosis_reported (hranged : ∀ rule ∈ rules, rule.WellRanged) :
    Diagnosis rules v strict (reported rules v strict) where
  unmatched := ofKind_unmatched_eq
  conflict_iff _ _ := mem_conflict_keys_iff hranged
  conflict_between name role existing lines incoming line h := by
    obtain ⟨c, hc, he⟩ := mem_conflicts_iff.mp (mem_ofKind.mpr ⟨h, rfl⟩)
    obtain ⟨name', role', hnames⟩ := exists_names_of_clash hc
    rw [Clash.error, hnames.className_eq, hnames.roleName_eq] at he
    obtain ⟨rfl, rfl, rfl, rfl, rfl, rfl⟩ := CompileError.conflictingCardinality.inj he
    exact exists_history_of_clash hnames hc
  orphan_iff _ _ := mem_orphan_keys_iff
  orphan_once := nodup_orphan_keys
  orphan_bound name role bound line h := by
    have hmem := mem_ofKind.mpr ⟨h, rfl⟩
    obtain ⟨p, entry, hentry, -, he⟩ := mem_orphans_iff.mp hmem
    obtain ⟨name', role', hnames⟩ := exists_names_of_get? hentry
    rw [Entry.orphanError, hnames.className_eq, hnames.roleName_eq] at he
    obtain ⟨rfl, rfl, rfl, rfl⟩ := CompileError.orphanCardinality.inj he
    refine ⟨(mem_orphan_keys_iff.mp (List.mem_map_of_mem hmem)).isAggregate, ?_⟩
    obtain ⟨first, taken, hfirst, hline, hsub, hintersects⟩ :=
      exists_history_of_orphan hnames hentry
    exact ⟨first, taken, entry.lines, hfirst, hline, hsub, hintersects⟩

theorem exists_key_iff {k : CompileError.Kind} (hk : k ≠ .unmatched) (errors : List CompileError) :
    ofKind k errors ≠ [] ↔
      ∃ name role, some (name, role) ∈ (ofKind k errors).map CompileError.key? := by
  constructor
  · intro h
    obtain ⟨e, he⟩ := List.exists_mem_of_ne_nil _ h
    have hkind := (mem_ofKind.mp he).2
    cases e with
    | unmatchedPattern line side pattern => exact (hk hkind.symm).elim
    | conflictingCardinality name role existing lines incoming line =>
      exact ⟨name, role, List.mem_map_of_mem he⟩
    | orphanCardinality name role bound line => exact ⟨name, role, List.mem_map_of_mem he⟩
  · intro h hnil
    obtain ⟨name, role, hkey⟩ := h
    rw [hnil] at hkey
    cases hkey

theorem ofKind_unmatched_ne_nil_iff : ofKind .unmatched (reported rules v strict) ≠ [] ↔
    strict = true ∧ ∃ rule ∈ rules, ∃ o ∈ rule.occurrences, o.token.Idle v := by
  rw [ofKind_unmatched_eq]
  cases strict with
  | false => simp
  | true =>
    simp only [if_true, ne_eq, List.map_eq_nil_iff, List.filter_eq_nil_iff,
      List.forall_mem_flatMap, decide_eq_true_eq, Classical.not_forall, Classical.not_not,
      exists_prop, true_and]

/-- Compiling fails for the reasons that its errors give, and for no others. -/
theorem compile_diagnosis (hranged : ∀ rule ∈ rules, rule.WellRanged) :
    ((∃ errors, compile rules v strict = .error errors) ↔
      (strict = true ∧ ∃ rule ∈ rules, ∃ o ∈ rule.occurrences, o.token.Idle v) ∨
        (∃ name role, Conflicting rules v name role) ∨ ∃ name role, Orphaned rules v name role) ∧
      ∀ errors, compile rules v strict = .error errors → Diagnosis rules v strict errors := by
  have hdiagnosis : Diagnosis rules v strict (reported rules v strict) := diagnosis_reported hranged
  have hfails : (∃ errors, compile rules v strict = .error errors) ↔
      reported rules v strict ≠ [] := by
    simp only [compile_eq_error_iff, exists_eq_left']
  have hkinds : reported rules v strict ≠ [] ↔ ofKind .unmatched (reported rules v strict) ≠ [] ∨
      ofKind .conflict (reported rules v strict) ≠ [] ∨
        ofKind .orphan (reported rules v strict) ≠ [] := by
    rw [ne_eq, CompileError.eq_nil_iff_ofKind, Classical.not_forall]
    constructor
    · intro h
      obtain ⟨k, hk⟩ := h
      cases k with
      | unmatched => exact .inl hk
      | conflict => exact .inr (.inl hk)
      | orphan => exact .inr (.inr hk)
    · exact fun h => h.elim (⟨_, ·⟩) fun h => h.elim (⟨_, ·⟩) (⟨_, ·⟩)
  refine ⟨?_, fun errors herrors => ?_⟩
  · have hconflict := exists_key_iff (k := .conflict) nofun (reported rules v strict)
    have horphan := exists_key_iff (k := .orphan) nofun (reported rules v strict)
    simp only [hdiagnosis.conflict_iff] at hconflict
    simp only [hdiagnosis.orphan_iff] at horphan
    rw [hfails, hkinds, ofKind_unmatched_ne_nil_iff, hconflict, horphan]
  · obtain ⟨rfl, -⟩ := compile_eq_error_iff.mp herrors
    exact hdiagnosis

def faultyRules : List Rule := [
  ⟨1, .attachment [⟨⟨"ap*"⟩, some ⟨1, some 2⟩⟩] [⟨⟨"db"⟩, none⟩]⟩,
  ⟨4, .attachment [⟨⟨"api"⟩, some (.atLeast 5)⟩] [⟨⟨"db"⟩, none⟩, ⟨⟨"cache"⟩, none⟩]⟩,
  ⟨6, .targetAggregate [⟨⟨"l*"⟩, some (.exactly 2)⟩, ⟨⟨"db"⟩, some (.atMost 9)⟩]⟩]

/-- One fault of each kind. -/
theorem compile_diagnosis_faulty : ∃ errors,
    compile faultyRules (.ofNames ["api", "app", "db", "log"]) true = .error errors ∧
      errors = [
        .unmatchedPattern 4 .right "cache",
        .conflictingCardinality "api" (.sourceOf "db") ⟨1, some 2⟩ [1] ⟨5, none⟩ 4,
        .orphanCardinality "log" .target ⟨2, some 2⟩ 6] ∧
      Conflicting faultyRules (.ofNames ["api", "app", "db", "log"]) "api" (.sourceOf "db") ∧
        Orphaned faultyRules (.ofNames ["api", "app", "db", "log"]) "log" .target ∧
          Diagnosis faultyRules (.ofNames ["api", "app", "db", "log"]) true errors := by
  have hranged : ∀ rule ∈ faultyRules, rule.WellRanged := by decide +kernel
  have hdiagnosis := (@compile_diagnosis _ (.ofNames ["api", "app", "db", "log"]) true hranged).2
    _ rfl
  refine ⟨_, rfl, by decide +kernel, ?_, ?_, hdiagnosis⟩
  · exact (hdiagnosis.conflict_iff "api" (.sourceOf "db")).mp (by decide +kernel)
  · exact (hdiagnosis.orphan_iff "log" .target).mp (by decide +kernel)

end AttachmentGrammar
