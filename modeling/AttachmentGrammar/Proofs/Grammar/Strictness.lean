import AttachmentGrammar.Proofs.Grammar.Reordering
/-!
Strict and lenient reading. Main statement: strict reading is lenient reading without unmatched
patterns. Where there are none, both compile to the same or fail with the same errors; where there
are some, strict reading fails with these among its errors, and the others are the lenient ones.
-/
namespace AttachmentGrammar

open CompileError (ofKind ofKind_append)

variable {rules : List Rule} {v : Vocabulary} {strict : Bool}

namespace CompileError

/-- The errors that are not about unmatched patterns. -/
def matched (errors : List CompileError) : List CompileError :=
  errors.filter fun e => e.kind ≠ .unmatched

theorem matched_append (errors errors' : List CompileError) :
    matched (errors ++ errors') = matched errors ++ matched errors' :=
  List.filter_append _ _

/-- Errors of two kinds without orphans: the conflicts are left. -/
theorem matched_eq_conflicts {errors : List CompileError} (h : ofKind .orphan errors = []) :
    matched errors = ofKind .conflict errors := by
  refine List.filter_congr fun e he => ?_
  have hkind : e.kind ≠ .orphan := by
    intro horphan
    have hmem : e ∈ ofKind .orphan errors := mem_ofKind.mpr ⟨he, horphan⟩
    rw [h] at hmem
    cases hmem
  cases hk : e.kind <;> simp_all

theorem matched_eq_self {errors : List CompileError} (h : ofKind .unmatched errors = []) :
    matched errors = errors := by
  rw [matched, List.filter_eq_self]
  intro e he
  have hkind : e.kind ≠ .unmatched := by
    intro hunmatched
    have hmem : e ∈ ofKind .unmatched errors := mem_ofKind.mpr ⟨he, hunmatched⟩
    rw [h] at hmem
    cases hmem
  exact decide_eq_true hkind

/-- Without others, all errors are about unmatched patterns. -/
theorem eq_unmatched_of_matched {errors : List CompileError} (h : matched errors = []) :
    ofKind .unmatched errors = errors := by
  rw [ofKind, List.filter_eq_self]
  intro e he
  have hnot := List.filter_eq_nil_iff.mp h e he
  simpa using hnot

end CompileError

open CompileError (matched matched_append matched_eq_conflicts matched_eq_self)

/-! What both readings share. -/

theorem relation_draftOf_congr (strict strict' : Bool) :
    (draftOf rules v strict).relation = (draftOf rules v strict').relation := by
  rw [draftOf, draftOf, Draft.relation_foldl_addRule, Draft.relation_foldl_addRule]

theorem table_draftOf_congr (strict strict' : Bool) :
    (draftOf rules v strict).table = (draftOf rules v strict').table := by
  rw [table_draftOf, table_draftOf]

theorem orphans_draftOf_congr (strict strict' : Bool) :
    (draftOf rules v strict).orphans v = (draftOf rules v strict').orphans v := by
  rw [Draft.orphans, Draft.orphans, relation_draftOf_congr strict strict',
    table_draftOf_congr strict strict']

theorem unsatisfiable_draftOf_congr (strict strict' : Bool) :
    (draftOf rules v strict).unsatisfiable v = (draftOf rules v strict').unsatisfiable v := by
  rw [Draft.unsatisfiable, Draft.unsatisfiable, relation_draftOf_congr strict strict',
    table_draftOf_congr strict strict']

theorem grammar_accepted_congr (strict strict' : Bool) :
    (accepted rules v strict).grammar = (accepted rules v strict').grammar := by
  rw [accepted, accepted, relation_draftOf_congr strict strict',
    table_draftOf_congr strict strict']

/-- The rules by themselves never report an orphan. -/
theorem ofKind_orphan_errors : ofKind .orphan (draftOf rules v strict).errors = [] := by
  rw [draftOf, Draft.ofKind_errors_foldl_addRule]
  rfl

theorem matched_errors : matched (draftOf rules v strict).errors =
    (Table.clashes .empty (rules.flatMap (Rule.demands v))).map (Clash.error v) := by
  rw [matched_eq_conflicts ofKind_orphan_errors, draftOf, Draft.ofKind_errors_foldl_addRule]
  rfl

/-- Apart from unmatched patterns both readings report the same, in the same order. -/
theorem matched_reported_congr (strict strict' : Bool) :
    matched (reported rules v strict) = matched (reported rules v strict') := by
  rw [reported, reported, matched_append, matched_append, matched_errors, matched_errors,
    orphans_draftOf_congr strict strict']

theorem matched_reported_lenient : matched (reported rules v false) = reported rules v false :=
  matched_eq_self ofKind_unmatched_reported

/-- The strict errors without the unmatched patterns are the lenient errors. -/
theorem matched_reported_strict : matched (reported rules v true) = reported rules v false := by
  rw [matched_reported_congr true false, matched_reported_lenient]

theorem unmatched_reported_strict : ofKind .unmatched (reported rules v true) =
    (rules.flatMap (Rule.unmatched v)).map Unmatched.error :=
  ofKind_unmatched_reported

theorem unmatched_accepted_lenient : Warning.unmatched (accepted rules v false).warnings =
    (rules.flatMap (Rule.unmatched v)).map Unmatched.warning :=
  unmatched_accepted

/-- If leniently nothing is wrong, the strict errors are the unmatched patterns. -/
theorem reported_strict_of_lenient (h : reported rules v false = []) :
    reported rules v true = (rules.flatMap (Rule.unmatched v)).map Unmatched.error := by
  rw [← unmatched_reported_strict, CompileError.eq_unmatched_of_matched]
  rw [matched_reported_strict, h]

/-- Strictly nothing is wrong exactly if leniently nothing is and every pattern covers a class. -/
theorem reported_strict_eq_nil_iff : reported rules v true = [] ↔
    reported rules v false = [] ∧ rules.flatMap (Rule.unmatched v) = [] := by
  constructor
  · intro hnone
    constructor
    · rw [← matched_reported_strict, hnone]
      rfl
    · rw [← List.map_eq_nil_iff, ← unmatched_reported_strict, hnone]
      rfl
  · intro h
    obtain ⟨hlenient, hunmatched⟩ := h
    rw [reported_strict_of_lenient hlenient, hunmatched]
    rfl

theorem warnings_accepted : (accepted rules v strict).warnings =
    (if strict then [] else (rules.flatMap (Rule.unmatched v)).map Unmatched.warning) ++
      (draftOf rules v strict).unsatisfiable v := by
  rw [accepted, draftOf, Draft.warnings_foldl_addRule]
  rfl

/-- Without unmatched patterns both readings accept the same. -/
theorem accepted_congr (h : rules.flatMap (Rule.unmatched v) = []) :
    accepted rules v true = accepted rules v false := by
  have hwarnings : (accepted rules v true).warnings = (accepted rules v false).warnings := by
    rw [warnings_accepted, warnings_accepted, h, unsatisfiable_draftOf_congr true false]
    rfl
  calc accepted rules v true
    _ = ⟨(accepted rules v true).grammar, (accepted rules v true).warnings⟩ := rfl
    _ = accepted rules v false := by rw [grammar_accepted_congr true false, hwarnings]

/-- Strict reading is lenient reading in which every pattern that covers no class is an error. -/
theorem compile_strict (rules : List Rule) (v : Vocabulary) :
    (∀ out, compile rules v true = .ok out ↔
      compile rules v false = .ok out ∧ Warning.unmatched out.warnings = []) ∧
    (∀ out, compile rules v false = .ok out → Warning.unmatched out.warnings ≠ [] →
      ∃ found : List Unmatched, Warning.unmatched out.warnings = found.map Unmatched.warning ∧
        compile rules v true = .error (found.map Unmatched.error)) ∧
    ∀ errors, compile rules v false = .error errors → ∃ errors',
      compile rules v true = .error errors' ∧ matched errors' = errors := by
  refine ⟨fun out => ?_, fun out hlenient hsome => ?_, fun errors hlenient => ?_⟩
  · rw [compile_eq_ok_iff, compile_eq_ok_iff, reported_strict_eq_nil_iff]
    constructor
    · intro hstrict
      obtain ⟨⟨hnone, hunmatched⟩, rfl⟩ := hstrict
      rw [accepted_congr hunmatched]
      refine ⟨⟨hnone, rfl⟩, ?_⟩
      rw [unmatched_accepted_lenient, hunmatched]
      rfl
    · intro hlenient
      obtain ⟨⟨hnone, rfl⟩, hunmatched⟩ := hlenient
      rw [unmatched_accepted_lenient, List.map_eq_nil_iff] at hunmatched
      exact ⟨⟨hnone, hunmatched⟩, accepted_congr hunmatched⟩
  · obtain ⟨hnone, rfl⟩ := compile_eq_ok_iff.mp hlenient
    rw [unmatched_accepted_lenient] at hsome
    refine ⟨rules.flatMap (Rule.unmatched v), unmatched_accepted_lenient,
      compile_eq_error_iff.mpr ⟨reported_strict_of_lenient hnone, ?_⟩⟩
    rw [ne_eq, List.map_eq_nil_iff] at hsome ⊢
    exact hsome
  · obtain ⟨rfl, hne⟩ := compile_eq_error_iff.mp hlenient
    have hstrict : reported rules v true ≠ [] := fun hnone =>
      hne (reported_strict_eq_nil_iff.mp hnone).1
    exact ⟨_, compile_eq_error_iff.mpr ⟨rfl, hstrict⟩, matched_reported_strict⟩

def portRules : List Rule := [
  ⟨1, .attachment [⟨⟨"ship"⟩, some (.atMost 1)⟩, ⟨⟨"barge"⟩, none⟩] [⟨⟨"q*"⟩, none⟩]⟩,
  ⟨2, .targetAggregate [⟨⟨"dock*"⟩, some (.exactly 2)⟩]⟩]

def portConflict : Rule := ⟨5, .attachment [⟨⟨"s*"⟩, some (.atLeast 3)⟩] [⟨⟨"quay"⟩, none⟩]⟩

/-- Two patterns cover nothing. A rule against an earlier bound adds an error to both readings. -/
theorem compile_strict_port :
    (∃ found : List Unmatched,
      [.unmatchedPattern 1 .left "barge", .unmatchedPattern 2 .right "dock*"] =
        found.map Unmatched.warning ∧
      compile portRules (.ofNames ["quay", "ship"]) true =
        .error (found.map Unmatched.error)) ∧
    (∃ errors, errors.length = 3 ∧
      compile (portRules ++ [portConflict]) (.ofNames ["quay", "ship"]) true = .error errors ∧
      matched errors = [.conflictingCardinality "ship" (.sourceOf "quay") (.atMost 1) [1]
          (.atLeast 3) 5]) ∧
    compile [portConflict] (.ofNames ["quay", "ship"]) true =
      compile [portConflict] (.ofNames ["quay", "ship"]) false := by
  refine ⟨?unmatched, ?conflict, ?clean⟩
  case unmatched =>
    have hlenient : compile portRules (.ofNames ["quay", "ship"]) false =
        .ok (accepted portRules (.ofNames ["quay", "ship"]) false) := rfl
    obtain ⟨-, hsome, -⟩ := compile_strict portRules (.ofNames ["quay", "ship"])
    obtain ⟨found, hfound, hstrict⟩ := hsome _ hlenient (by decide +kernel)
    have hwarnings :
        Warning.unmatched (accepted portRules (.ofNames ["quay", "ship"]) false).warnings =
          [.unmatchedPattern 1 .left "barge", .unmatchedPattern 2 .right "dock*"] := by
      decide +kernel
    exact ⟨found, hwarnings.symm.trans hfound, hstrict⟩
  case conflict =>
    have hlenient : compile (portRules ++ [portConflict]) (.ofNames ["quay", "ship"]) false =
        .error [.conflictingCardinality "ship" (.sourceOf "quay") (.atMost 1) [1]
          (.atLeast 3) 5] := rfl
    obtain ⟨-, -, herr⟩ := compile_strict (portRules ++ [portConflict]) (.ofNames ["quay", "ship"])
    obtain ⟨errors, hstrict, hmatched⟩ := herr _ hlenient
    have hreported : errors =
        reported (portRules ++ [portConflict]) (.ofNames ["quay", "ship"]) true :=
      (compile_eq_error_iff.mp hstrict).1.symm
    exact ⟨errors, by rw [hreported]; decide +kernel, hstrict, hmatched⟩
  case clean =>
    have hlenient : compile [portConflict] (.ofNames ["quay", "ship"]) false =
        .ok (accepted [portConflict] (.ofNames ["quay", "ship"]) false) := rfl
    obtain ⟨hok, -, -⟩ := compile_strict [portConflict] (.ofNames ["quay", "ship"])
    rw [hlenient]
    exact (hok _).mpr ⟨hlenient, by decide +kernel⟩

end AttachmentGrammar
