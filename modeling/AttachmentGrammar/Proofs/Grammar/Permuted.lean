import AttachmentGrammar.Proofs.Grammar.Diagnosis
/-!
The errors of rules in another order. Main statement: permuted rules fail for the same tokens that
cover no class, the same orphans and the same conflicts; only how often a conflict is reported
depends on the order, and it is less often than ranges are given.
-/
namespace AttachmentGrammar

open CompileError (ofKind mem_ofKind)
open Table (demandsAt)

variable {rules rules' : List Rule} {v : Vocabulary} {strict : Bool} {name : String}
  {role : Role String} {p : Position}

/-! How often one position clashes. -/

namespace Table

variable {t : Table} {qs : List Demand}

theorem map_demand_clash? (t : Table) (q : Demand) :
    (t.clash? q).toList.map Clash.demand = if (t.clash? q).isSome then [q] else [] := by
  cases hclash : t.clash? q with
  | none => rfl
  | some c => simp [demand_eq_of_clash? hclash]

/-- No demand clashes twice. -/
theorem clashes_sublist (t : Table) (qs : List Demand) :
    ((t.clashes qs).map Clash.demand).Sublist qs := by
  induction qs generalizing t with
  | nil => exact .refl _
  | cons q qs ih =>
    rw [clashes, List.map_append, map_demand_clash?]
    split
    · exact (ih (t.settle q)).cons_cons q
    · exact (ih (t.settle q)).cons q

/-- The first demand at a position does not clash. -/
theorem clashesAt_sublist_tail (h : t.get? p = none) (qs : List Demand) :
    (demandsAt p ((t.clashes qs).map Clash.demand)).Sublist (demandsAt p qs).tail := by
  induction qs generalizing t with
  | nil => exact .refl _
  | cons q qs ih =>
    rw [clashes, List.map_append, map_demand_clash?]
    by_cases hq : q.position = p
    · -- nothing is held yet, so this demand is taken, whatever clashes after it
      have hclash : t.clash? q = none := by rw [clash?, hq, h]
      have hrest := (clashes_sublist (t.settle q) qs).filter fun q => q.position = p
      simpa [demandsAt, hclash, hq] using hrest
    · have hrest := ih ((get?_settle_of_ne (Ne.symm hq)).trans h)
      have hothers : demandsAt p (if (t.clash? q).isSome then [q] else []) = [] := by
        split <;> simp [demandsAt, hq]
      rw [demandsAt_append, hothers, List.nil_append]
      simpa [demandsAt, hq] using hrest

end Table

/-- The conflicts of a class in a role are the clashes at its position. -/
theorem count_conflict_keys (strict : Bool) (hnames : p.Names v name role) :
    ((ofKind .conflict (reported rules v strict)).map CompileError.key?).count (some (name, role)) =
      (demandsAt p ((Table.clashes .empty (rules.flatMap (Rule.demands v))).map
        Clash.demand)).length := by
  have hkey : ∀ c ∈ Table.clashes .empty (rules.flatMap (Rule.demands v)),
      (c.error v).key? = some (name, role) ↔ c.demand.position = p := by
    intro c hc
    obtain ⟨name', role', hnames'⟩ := exists_names_of_clash hc
    rw [Clash.key?_error hnames']
    constructor
    · intro h
      obtain ⟨rfl, rfl⟩ := Prod.mk.inj (Option.some.inj h)
      exact hnames'.inj hnames
    · rintro rfl
      have hname := hnames.className_eq
      have hrole := hnames.roleName_eq
      rw [hnames'.className_eq] at hname
      rw [hnames'.roleName_eq] at hrole
      rw [hname, hrole]
  rw [ofKind_conflict_reported, List.map_map, List.count, List.countP_map, demandsAt,
    ← List.countP_eq_length_filter, List.countP_map]
  refine List.countP_congr fun c hc => ?_
  simpa using hkey c hc

/-- A conflict is reported once at least, and less often than ranges are given. -/
theorem count_conflict_lt (hranged : ∀ rule ∈ rules, rule.WellRanged)
    (h : Conflicting rules v name role) :
    0 < ((ofKind .conflict (reported rules v strict)).map CompileError.key?).count
        (some (name, role)) ∧
      ((ofKind .conflict (reported rules v strict)).map CompileError.key?).count
        (some (name, role)) < (history rules name role).length := by
  have hmem : some (name, role) ∈
      (ofKind .conflict (reported rules v strict)).map CompileError.key? :=
    (mem_conflict_keys_iff hranged).mpr h
  have hpos := List.count_pos_iff.mpr hmem
  refine ⟨hpos, ?_⟩
  obtain ⟨p, hnames⟩ := Position.exists_names_iff.mpr h.1
  have hle := (Table.clashesAt_sublist_tail (t := .empty) (p := p) rfl
    (rules.flatMap (Rule.demands v))).length_le
  rw [← count_conflict_keys strict hnames, List.length_tail,
    demandsAt_flatMap_demands rules hnames, List.length_map] at hle
  omega

/-! The same rules in another order. -/

theorem contributions_perm (h : rules.Perm rules') (name : String) (role : Role String) :
    (contributions rules name role).Perm (contributions rules' name role) :=
  h.flatMap_right _

theorem history_perm (h : rules.Perm rules') (name : String) (role : Role String) :
    (history rules name role).Perm (history rules' name role) :=
  h.flatMap_right _

theorem conflicting_perm_iff (h : rules.Perm rules') :
    Conflicting rules v name role ↔ Conflicting rules' v name role := by
  simp only [Conflicting, (contributions_perm h name role).mem_iff]

theorem allowed_perm_iff (h : rules.Perm rules') (source target : String) :
    Allowed rules v source target ↔ Allowed rules' v source target := by
  simp only [Allowed, h.mem_iff]

theorem orphaned_perm_iff (h : rules.Perm rules') :
    Orphaned rules v name role ↔ Orphaned rules' v name role := by
  have hgiven : contributions rules name role = [] ↔ contributions rules' name role = [] := by
    rw [← List.length_eq_zero_iff, (contributions_perm h name role).length_eq,
      List.length_eq_zero_iff]
  simp only [Orphaned, Isolated, ne_eq, hgiven, allowed_perm_iff h]

theorem wellRanged_perm (h : rules.Perm rules') (hranged : ∀ rule ∈ rules, rule.WellRanged) :
    ∀ rule ∈ rules', rule.WellRanged :=
  fun rule hrule => hranged rule (h.mem_iff.mpr hrule)

/-- Every error but that of an unmatched token is about a class in a role. -/
theorem mem_keys_iff {k : CompileError.Kind} (hk : k ≠ .unmatched) {errors : List CompileError}
    {key : Option (String × Role String)} : key ∈ (ofKind k errors).map CompileError.key? ↔
      ∃ name role, key = some (name, role) ∧
        some (name, role) ∈ (ofKind k errors).map CompileError.key? := by
  refine ⟨fun h => ?_, fun ⟨name, role, hkey, h⟩ => hkey ▸ h⟩
  obtain ⟨e, he, rfl⟩ := List.mem_map.mp h
  have hkind := (mem_ofKind.mp he).2
  cases e with
  | unmatchedPattern line side pattern => exact (hk hkind.symm).elim
  | conflictingCardinality name role existing lines incoming line => exact ⟨name, role, rfl, h⟩
  | orphanCardinality name role bound line => exact ⟨name, role, rfl, h⟩

/-- Two lists of errors, made of the same rules, name the same faults. -/
structure SameFaults (rules : List Rule) (errors errors' : List CompileError) : Prop where
  unmatched_perm : (ofKind .unmatched errors).Perm (ofKind .unmatched errors')
  orphan_perm : ((ofKind .orphan errors).map CompileError.key?).Perm
    ((ofKind .orphan errors').map CompileError.key?)
  conflict_iff : ∀ name role, some (name, role) ∈ (ofKind .conflict errors).map CompileError.key? ↔
    some (name, role) ∈ (ofKind .conflict errors').map CompileError.key?
  conflict_lt : ∀ name role, some (name, role) ∈ (ofKind .conflict errors).map CompileError.key? →
    ((ofKind .conflict errors).map CompileError.key?).count (some (name, role)) <
        (history rules name role).length ∧
      ((ofKind .conflict errors').map CompileError.key?).count (some (name, role)) <
        (history rules name role).length

theorem sameFaults_reported (h : rules.Perm rules') (hranged : ∀ rule ∈ rules, rule.WellRanged) :
    SameFaults rules (reported rules v strict) (reported rules' v strict) := by
  have hranged' := wellRanged_perm h hranged
  constructor
  case unmatched_perm =>
    rw [ofKind_unmatched_reported, ofKind_unmatched_reported]
    split
    · exact (h.flatMap_right _).map _
    · exact .refl _
  case orphan_perm =>
    refine (List.perm_ext_iff_of_nodup nodup_orphan_keys nodup_orphan_keys).mpr fun key => ?_
    rw [mem_keys_iff (k := .orphan) nofun, mem_keys_iff (k := .orphan) nofun]
    simp only [mem_orphan_keys_iff, orphaned_perm_iff h]
  case conflict_iff =>
    intro name role
    rw [mem_conflict_keys_iff hranged, mem_conflict_keys_iff hranged', conflicting_perm_iff h]
  case conflict_lt =>
    intro name role hkey
    have hconflicting := (mem_conflict_keys_iff hranged).mp hkey
    refine ⟨(count_conflict_lt hranged hconflicting).2, ?_⟩
    rw [(history_perm h name role).length_eq]
    exact (count_conflict_lt hranged' ((conflicting_perm_iff h).mp hconflicting)).2

theorem SameFaults.ne_nil {errors errors' : List CompileError} (h : SameFaults rules errors errors')
    (hne : errors ≠ []) : errors' ≠ [] := by
  rintro rfl
  refine hne (CompileError.eq_nil_iff_ofKind.mpr fun k => ?_)
  cases k with
  | unmatched => exact h.unmatched_perm.eq_nil
  | conflict =>
    refine Classical.byContradiction fun hconflict => ?_
    obtain ⟨name, role, hkey⟩ := (exists_key_iff (k := .conflict) nofun errors).mp hconflict
    cases (h.conflict_iff name role).mp hkey
  | orphan => exact List.map_eq_nil_iff.mp h.orphan_perm.eq_nil

/-- Rules that do not compile do not compile in any order, and for the same faults. -/
theorem compile_errors_perm (hranged : ∀ rule ∈ rules, rule.WellRanged) (h : rules.Perm rules')
    {errors : List CompileError} (herrors : compile rules v strict = .error errors) :
    ∃ errors', compile rules' v strict = .error errors' ∧ SameFaults rules errors errors' := by
  obtain ⟨rfl, hne⟩ := compile_eq_error_iff.mp herrors
  have hsame : SameFaults rules (reported rules v strict) (reported rules' v strict) :=
    sameFaults_reported h hranged
  exact ⟨_, compile_eq_error_iff.mpr ⟨rfl, hsame.ne_nil hne⟩, hsame⟩

/-- The range in the middle has no count in common with either of the others. -/
def ladderRules : List Rule := [
  ⟨1, .attachment [⟨⟨"rung"⟩, none⟩] [⟨⟨"rail"⟩, none⟩]⟩,
  ⟨2, .sourceAggregate [⟨⟨"rung"⟩, some ⟨1, some 2⟩⟩]⟩,
  ⟨3, .sourceAggregate [⟨⟨"rung"⟩, some ⟨3, some 4⟩⟩]⟩,
  ⟨4, .sourceAggregate [⟨⟨"rung"⟩, some ⟨1, some 1⟩⟩]⟩]

/-- What stands in the middle comes first, so that it is held and both others clash with it. -/
def ladderRulesMoved : List Rule := [
  ⟨1, .attachment [⟨⟨"rung"⟩, none⟩] [⟨⟨"rail"⟩, none⟩]⟩,
  ⟨3, .sourceAggregate [⟨⟨"rung"⟩, some ⟨3, some 4⟩⟩]⟩,
  ⟨2, .sourceAggregate [⟨⟨"rung"⟩, some ⟨1, some 2⟩⟩]⟩,
  ⟨4, .sourceAggregate [⟨⟨"rung"⟩, some ⟨1, some 1⟩⟩]⟩]

theorem ladderRules_perm : ladderRules.Perm ladderRulesMoved := .cons _ (.swap _ _ _)

theorem compile_errors_perm_ladder : ∃ errors errors',
    compile ladderRules (.ofNames ["rail", "rung"]) true = .error errors ∧
      compile ladderRulesMoved (.ofNames ["rail", "rung"]) true = .error errors' ∧
        errors = [.conflictingCardinality "rung" .source ⟨1, some 2⟩ [2] ⟨3, some 4⟩ 3] ∧
          SameFaults ladderRules errors errors' := by
  have hranged : ∀ rule ∈ ladderRules, rule.WellRanged := by decide +kernel
  obtain ⟨errors', herrors', hsame⟩ := @compile_errors_perm _ _ (.ofNames ["rail", "rung"]) true
    hranged ladderRules_perm _ rfl
  exact ⟨_, errors', rfl, herrors', by decide +kernel, hsame⟩

/-- How often a conflict is reported depends on the order. -/
theorem count_conflicts_ladder : ∃ errors errors',
    (∀ rule ∈ ladderRules, rule.WellRanged) ∧ ladderRules.Perm ladderRulesMoved ∧
      compile ladderRules (.ofNames ["rail", "rung"]) true = .error errors ∧
        compile ladderRulesMoved (.ofNames ["rail", "rung"]) true = .error errors' ∧
          (ofKind .conflict errors).map CompileError.key? = [some ("rung", .source)] ∧
            (ofKind .conflict errors').map CompileError.key? =
              [some ("rung", .source), some ("rung", .source)] ∧
              ¬((ofKind .conflict errors).map CompileError.key?).Perm
                ((ofKind .conflict errors').map CompileError.key?) := by
  refine ⟨_, _, by decide +kernel, ladderRules_perm, rfl, rfl, by decide +kernel,
    by decide +kernel, fun h => ?_⟩
  have hlength := h.length_eq
  revert hlength
  decide +kernel

end AttachmentGrammar
