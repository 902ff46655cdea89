import AttachmentGrammar.Proofs.Grammar.Table
/-!
What compiling reports, kind by kind. Main statements: the unmatched tokens are reported rule by
rule, the clashes in the order of the demands, the orphans in the order of the table; a grammar is
made exactly if nothing is reported, and then it holds the relation and the table of the draft.
-/
namespace AttachmentGrammar

open Cardinality (Agree)

/-- A token of a rule that covers no known class. -/
structure Unmatched where
  line : Nat
  side : Side
  pattern : String
  deriving DecidableEq, Repr

def Unmatched.error (u : Unmatched) : CompileError := .unmatchedPattern u.line u.side u.pattern

def Unmatched.warning (u : Unmatched) : Warning := .unmatchedPattern u.line u.side u.pattern

def Rule.unmatched (v : Vocabulary) (rule : Rule) : List Unmatched :=
  (unmatchedPatterns v rule.statement.sources).map (⟨rule.line, .left, ·⟩) ++
    (unmatchedPatterns v rule.statement.targets).map (⟨rule.line, .right, ·⟩)

namespace CompileError

inductive Kind where
  | unmatched
  | conflict
  | orphan
  deriving DecidableEq

def kind : CompileError → Kind
  | unmatchedPattern _ _ _ => .unmatched
  | conflictingCardinality _ _ _ _ _ _ => .conflict
  | orphanCardinality _ _ _ _ => .orphan

def ofKind (k : Kind) (errors : List CompileError) : List CompileError :=
  errors.filter fun e => e.kind = k

@[simp] theorem ofKind_nil (k : Kind) : ofKind k [] = [] := rfl

theorem ofKind_append (k : Kind) (errors errors' : List CompileError) :
    ofKind k (errors ++ errors') = ofKind k errors ++ ofKind k errors' :=
  List.filter_append _ _

theorem mem_ofKind {k : Kind} {errors : List CompileError} {e : CompileError} :
    e ∈ ofKind k errors ↔ e ∈ errors ∧ e.kind = k := by
  rw [ofKind, List.mem_filter, decide_eq_true_eq]

/-- A list made of errors of one kind holds errors of that kind only. -/
theorem ofKind_map {α : Type} {f : α → CompileError} {k : Kind} (h : ∀ a, (f a).kind = k)
    (k' : Kind) (items : List α) :
    ofKind k' (items.map f) = if k' = k then items.map f else [] := by
  split
  · rename_i hk
    rw [ofKind, List.filter_eq_self]
    intro e he
    obtain ⟨a, -, rfl⟩ := List.mem_map.mp he
    rw [h, hk, decide_eq_true rfl]
  · rename_i hk
    rw [ofKind, List.filter_eq_nil_iff]
    intro e he hkind
    obtain ⟨a, -, rfl⟩ := List.mem_map.mp he
    rw [h] at hkind
    exact hk (of_decide_eq_true hkind).symm

/-- Every error is of one of the three kinds. -/
theorem eq_nil_iff_ofKind {errors : List CompileError} :
    errors = [] ↔ ∀ k, ofKind k errors = [] := by
  constructor
  · rintro rfl k
    rfl
  · intro h
    rw [List.eq_nil_iff_forall_not_mem]
    intro e he
    have hmem : e ∈ ofKind e.kind errors := mem_ofKind.mpr ⟨he, rfl⟩
    rw [h] at hmem
    cases hmem

end CompileError

open CompileError (ofKind ofKind_append ofKind_map)

namespace Draft

variable {v : Vocabulary} {strict : Bool} {d : Draft} {rules : List Rule}

theorem reportStatement_eq (rule : Rule) :
    d.reportStatement strict v rule.line rule.statement = { d with
      errors := d.errors ++ if strict then (rule.unmatched v).map Unmatched.error else []
      warnings := d.warnings ++
        if strict then [] else (rule.unmatched v).map Unmatched.warning } := by
  cases strict <;>
    simp [reportStatement, reportUnmatched, Rule.unmatched, Unmatched.error, Unmatched.warning,
      Function.comp_def]

theorem foldl_allowPair_eq (pairs : List (ClassId × ClassId)) (d : Draft) :
    pairs.foldl allowPair d =
      { d with relation := pairs.foldl Relation.insertPair d.relation } := by
  induction pairs generalizing d with
  | nil => rfl
  | cons pair pairs ih => exact ih (d.allowPair pair)

theorem addRule_eq_parts (rule : Rule) : d.addRule v strict rule = {
    relation := (rule.statement.pairs v).foldl Relation.insertPair d.relation
    table := (rule.demands v).foldl Table.settle d.table
    warnings := d.warnings ++ if strict then [] else (rule.unmatched v).map Unmatched.warning
    errors := d.errors ++ (if strict then (rule.unmatched v).map Unmatched.error else []) ++
      (Table.clashes d.table (rule.demands v)).map (Clash.error v) } := by
  rw [addRule_eq, foldl_allowPair_eq, Table.foldl_impose_eq, reportStatement_eq]

theorem table_foldl_addRule (rules : List Rule) (d : Draft) :
    (rules.foldl (addRule v strict) d).table =
      (rules.flatMap (Rule.demands v)).foldl Table.settle d.table := by
  induction rules generalizing d with
  | nil => rfl
  | cons rule rules ih =>
    rw [List.foldl_cons, ih, addRule_eq_parts, List.flatMap_cons, List.foldl_append]

theorem warnings_foldl_addRule (rules : List Rule) (d : Draft) :
    (rules.foldl (addRule v strict) d).warnings = d.warnings ++
      if strict then [] else (rules.flatMap (Rule.unmatched v)).map Unmatched.warning := by
  induction rules generalizing d with
  | nil => cases strict <;> simp
  | cons rule rules ih => cases strict <;> simp [ih, addRule_eq_parts]

/-- What the rules add to the errors of one kind. -/
theorem ofKind_errors_foldl_addRule (k : CompileError.Kind) (rules : List Rule) (d : Draft) :
    ofKind k (rules.foldl (addRule v strict) d).errors = ofKind k d.errors ++
      match k with
      | .unmatched =>
        if strict then (rules.flatMap (Rule.unmatched v)).map Unmatched.error else []
      | .conflict =>
        (Table.clashes d.table (rules.flatMap (Rule.demands v))).map (Clash.error v)
      | .orphan => [] := by
  have hunmatched := ofKind_map (f := Unmatched.error) (fun _ => rfl) k
  have hclashes := ofKind_map (f := Clash.error v) (fun _ => rfl) k
  induction rules generalizing d with
  | nil => cases k <;> cases strict <;> simp [Table.clashes]
  | cons rule rules ih =>
    rw [List.foldl_cons, ih, addRule_eq_parts, ofKind_append, ofKind_append, hclashes]
    cases k <;> cases strict <;>
      simp [hunmatched, Table.clashes_append]

def orphans (v : Vocabulary) (d : Draft) : List CompileError :=
  d.table.toList.filterMap fun (p, entry) => orphan? v d.relation p entry

def unsatisfiable (v : Vocabulary) (d : Draft) : List Warning :=
  d.table.toList.filterMap fun (p, entry) => unsatisfiable? v d.relation p entry

theorem ofKind_orphans (k : CompileError.Kind) :
    ofKind k (d.orphans v) = if k = .orphan then d.orphans v else [] := by
  have hkind : ∀ e ∈ d.orphans v, e.kind = .orphan := by
    intro e he
    obtain ⟨⟨p, entry⟩, -, he⟩ := List.mem_filterMap.mp he
    simp only [orphan?] at he
    split at he
    · exact Option.some.inj he ▸ rfl
    · cases he
  split
  · rename_i hk
    rw [ofKind, List.filter_eq_self]
    exact fun e he => decide_eq_true (hk ▸ hkind e he)
  · rename_i hk
    rw [ofKind, List.filter_eq_nil_iff]
    exact fun e he h => hk ((of_decide_eq_true h).symm.trans (hkind e he))

end Draft

/-! The outcome. -/

variable {rules : List Rule} {v : Vocabulary} {strict : Bool}

def reported (rules : List Rule) (v : Vocabulary) (strict : Bool) : List CompileError :=
  (draftOf rules v strict).errors ++ (draftOf rules v strict).orphans v

/-- What compiling returns where nothing is reported. -/
def accepted (rules : List Rule) (v : Vocabulary) (strict : Bool) : Compilation where
  grammar := {
    vocabulary := v
    relation := (draftOf rules v strict).relation
    bounds := (draftOf rules v strict).table.mapValues Entry.bound
    ruleCount := rules.length }
  warnings := (draftOf rules v strict).warnings ++ (draftOf rules v strict).unsatisfiable v

theorem compile_eq : compile rules v strict =
    if reported rules v strict = [] then .ok (accepted rules v strict)
    else .error (reported rules v strict) := rfl

theorem compile_eq_error_iff {errors : List CompileError} :
    compile rules v strict = .error errors ↔ reported rules v strict = errors ∧ errors ≠ [] := by
  rw [compile_eq]
  split
  · rename_i h
    refine ⟨nofun, fun he => ?_⟩
    exact (he.2 (he.1.symm.trans h)).elim
  · rename_i h
    rw [Except.error.injEq]
    exact ⟨fun he => ⟨he, he ▸ h⟩, fun he => he.1⟩

theorem compile_eq_ok_iff {out : Compilation} : compile rules v strict = .ok out ↔
    reported rules v strict = [] ∧ accepted rules v strict = out := by
  rw [compile_eq]
  split
  · rename_i h
    rw [Except.ok.injEq, and_iff_right h]
  · rename_i h
    exact ⟨nofun, fun hok => (h hok.1).elim⟩

theorem exists_compile_eq_ok_iff :
    (∃ out, compile rules v strict = .ok out) ↔ reported rules v strict = [] := by
  simp only [compile_eq_ok_iff, exists_and_left, exists_eq', and_true]

theorem ofKind_unmatched_reported : ofKind .unmatched (reported rules v strict) =
    if strict then (rules.flatMap (Rule.unmatched v)).map Unmatched.error else [] := by
  rw [reported, ofKind_append, draftOf, Draft.ofKind_errors_foldl_addRule, Draft.ofKind_orphans]
  simp [Draft.empty]

theorem ofKind_conflict_reported : ofKind .conflict (reported rules v strict) =
    (Table.clashes .empty (rules.flatMap (Rule.demands v))).map (Clash.error v) := by
  rw [reported, ofKind_append, draftOf, Draft.ofKind_errors_foldl_addRule, Draft.ofKind_orphans]
  simp [Draft.empty]

theorem ofKind_orphan_reported :
    ofKind .orphan (reported rules v strict) = (draftOf rules v strict).orphans v := by
  rw [reported, ofKind_append, draftOf, Draft.ofKind_errors_foldl_addRule, Draft.ofKind_orphans]
  simp [Draft.empty]

theorem table_draftOf : (draftOf rules v strict).table =
    (rules.flatMap (Rule.demands v)).foldl Table.settle .empty :=
  Draft.table_foldl_addRule rules (.empty v)

/-- There is an orphan exactly if something is asked of a class that attaches nowhere. -/
theorem orphans_eq_nil_iff : (draftOf rules v strict).orphans v = [] ↔
    ∀ q ∈ rules.flatMap (Rule.demands v),
      Draft.isOrphan (draftOf rules v strict).relation q.position = false := by
  have hasked (p : Position) : (∃ entry, (p, entry) ∈ (draftOf rules v strict).table.toList) ↔
      ∃ q ∈ rules.flatMap (Rule.demands v), q.position = p := by
    simp only [SortedMap.mem_toList_iff, ← Option.isSome_iff_exists, table_draftOf,
      Table.isSome_get?_foldl_settle]
    simp
  have horphan (p : Position) (entry : Entry) :
      Draft.orphan? v (draftOf rules v strict).relation p entry = none ↔
        Draft.isOrphan (draftOf rules v strict).relation p = false := by
    rw [Draft.orphan?]
    split <;> simp_all
  rw [Draft.orphans, List.filterMap_eq_nil_iff]
  constructor
  · intro h q hq
    obtain ⟨entry, hentry⟩ := (hasked q.position).mpr ⟨q, hq, rfl⟩
    exact (horphan q.position entry).mp (h _ hentry)
  · intro h a ha
    obtain ⟨p, entry⟩ := a
    obtain ⟨q, hq, rfl⟩ := (hasked p).mp ⟨entry, ha⟩
    exact (horphan q.position entry).mpr (h q hq)

/-- Rules compile exactly if, in strict reading, every token covers a class, if the ranges asked for
at each position agree, and if every class that has a bound attaches somewhere. -/
theorem exists_compile_eq_ok : (∃ out, compile rules v strict = .ok out) ↔
    (strict = true → rules.flatMap (Rule.unmatched v) = []) ∧
      (∀ p, Agree (asked (rules.flatMap (Rule.demands v)) p)) ∧
      ∀ q ∈ rules.flatMap (Rule.demands v),
        Draft.isOrphan (draftOf rules v strict).relation q.position = false := by
  have hkinds : (∀ k, ofKind k (reported rules v strict) = []) ↔
      ofKind .unmatched (reported rules v strict) = [] ∧
        ofKind .conflict (reported rules v strict) = [] ∧
          ofKind .orphan (reported rules v strict) = [] := by
    constructor
    · exact fun h => ⟨h _, h _, h _⟩
    · rintro ⟨hunmatched, hconflict, horphan⟩ k
      cases k <;> assumption
  have hheld (p : Position) (cs : List Cardinality) : Table.held .empty p ++ cs = cs := rfl
  rw [exists_compile_eq_ok_iff, CompileError.eq_nil_iff_ofKind, hkinds, ofKind_unmatched_reported,
    ofKind_conflict_reported, ofKind_orphan_reported, orphans_eq_nil_iff, List.map_eq_nil_iff,
    Table.clashes_eq_nil_iff]
  simp only [hheld]
  cases strict <;> simp

end AttachmentGrammar
