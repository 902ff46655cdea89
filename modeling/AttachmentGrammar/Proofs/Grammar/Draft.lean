import AttachmentGrammar.Grammar.Compile
import AttachmentGrammar.Proofs.Relation
import AttachmentGrammar.Proofs.SortedMap
import AttachmentGrammar.Proofs.Vocabulary
/-!
A rule taken apart. Main statements: adding a rule reports its unmatched patterns, then marks its
pairs, then imposes its demands one by one; so the relation of a draft hangs on the pairs of its
rules alone, and its table on their demands.
-/
namespace AttachmentGrammar

/-- Tokens expand to the classes that one of them covers, with the range of that token. -/
theorem mem_expandTokens {v : Vocabulary} {tokens : List Token} {i : ClassId}
    {range : Option Cardinality} : (i, range) ∈ expandTokens v tokens ↔
      ∃ name, v.name? i = some name ∧
        ∃ t ∈ tokens, t.pattern.covers name = true ∧ t.bound? = range := by
  simp only [expandTokens, List.mem_flatMap, List.mem_map, Vocabulary.mem_expand, Prod.mk.injEq]
  constructor
  · intro h
    obtain ⟨t, ht, _, ⟨name, hname, hcovers⟩, rfl, hrange⟩ := h
    exact ⟨name, hname, t, ht, hcovers, hrange⟩
  · intro h
    obtain ⟨name, hname, t, ht, hcovers, hrange⟩ := h
    exact ⟨t, ht, i, ⟨name, hname, hcovers⟩, rfl, hrange⟩

/-- A class takes part exactly if some token covers its name. -/
theorem exists_mem_expandTokens {v : Vocabulary} {tokens : List Token} {i : ClassId} {name : String}
    (h : v.name? i = some name) : (∃ range, (i, range) ∈ expandTokens v tokens) ↔
      ∃ t ∈ tokens, t.pattern.covers name = true := by
  simp only [mem_expandTokens, h, Option.some.injEq, exists_eq_left']
  constructor
  · intro h
    obtain ⟨_, t, ht, hcovers, -⟩ := h
    exact ⟨t, ht, hcovers⟩
  · intro h
    obtain ⟨t, ht, hcovers⟩ := h
    exact ⟨t.bound?, t, ht, hcovers, rfl⟩

/-- A range that a rule asks for at a position. -/
structure Demand where
  position : Position
  range : Cardinality
  line : Nat
  deriving DecidableEq

def Demand.optional (line : Nat) (position : Position) : Option Cardinality → List Demand
  | none => []
  | some range => [⟨position, range, line⟩]

namespace Statement

def pairs (v : Vocabulary) : Statement → List (ClassId × ClassId)
  | attachment sources targets => (expandTokens v sources).flatMap fun source =>
      (expandTokens v targets).flatMap fun target => [(source.1, target.1)]
  | sourceAggregate _ | targetAggregate _ => []

def demands (v : Vocabulary) (line : Nat) : Statement → List Demand
  | attachment sources targets => (expandTokens v sources).flatMap fun source =>
      (expandTokens v targets).flatMap fun target =>
        Demand.optional line ⟨source.1, .sourceOf target.1⟩ source.2 ++
          Demand.optional line ⟨target.1, .targetOf source.1⟩ target.2
  | sourceAggregate sources => (expandTokens v sources).flatMap fun source =>
      Demand.optional line ⟨source.1, .source⟩ source.2
  | targetAggregate targets => (expandTokens v targets).flatMap fun target =>
      Demand.optional line ⟨target.1, .target⟩ target.2

end Statement

def Rule.demands (v : Vocabulary) (rule : Rule) : List Demand :=
  rule.statement.demands v rule.line

namespace Draft

variable {v : Vocabulary} {strict : Bool} {line : Nat} {d : Draft}

def impose (v : Vocabulary) (d : Draft) (q : Demand) : Draft := d.narrow v q.line q.position q.range

def allowPair (d : Draft) (pair : ClassId × ClassId) : Draft := d.allow pair.1 pair.2

def reportStatement (strict : Bool) (v : Vocabulary) (line : Nat) (s : Statement) (d : Draft) :
    Draft :=
  (d.reportUnmatched strict line .left (unmatchedPatterns v s.sources)).reportUnmatched strict line
    .right (unmatchedPatterns v s.targets)

theorem narrow?_eq (position : Position) (range : Option Cardinality) (d : Draft) :
    d.narrow? v line position range =
      (Demand.optional line position range).foldl (impose v) d := by
  cases range <;> rfl

theorem allowPair_impose (q : Demand) (pair : ClassId × ClassId) (d : Draft) :
    (d.impose v q).allowPair pair = (d.allowPair pair).impose v q := by
  cases hq : d.table.get? q.position with
  | none => simp [impose, allowPair, allow, narrow, hq]
  | some entry =>
    cases hi : entry.bound.intersect? q.range <;>
      simp [impose, allowPair, allow, narrow, hq, hi]

theorem foldl_allowPair_impose (q : Demand) (pairs : List (ClassId × ClassId)) (d : Draft) :
    pairs.foldl allowPair (d.impose v q) = (pairs.foldl allowPair d).impose v q := by
  induction pairs generalizing d with
  | nil => rfl
  | cons pair pairs ih => rw [List.foldl_cons, allowPair_impose, ih, List.foldl_cons]

theorem foldl_allowPair_foldl_impose (demands : List Demand) (pairs : List (ClassId × ClassId))
    (d : Draft) : pairs.foldl allowPair (demands.foldl (impose v) d) =
      demands.foldl (impose v) (pairs.foldl allowPair d) := by
  induction demands generalizing d with
  | nil => rfl
  | cons q demands ih => rw [List.foldl_cons, ih, foldl_allowPair_impose, List.foldl_cons]

/-- Steps that each mark pairs and then impose demands do all marking first. -/
theorem foldl_of_step {α : Type} (pairs : α → List (ClassId × ClassId)) (demands : α → List Demand)
    (step : Draft → α → Draft)
    (hstep : ∀ d a, step d a = (demands a).foldl (impose v) ((pairs a).foldl allowPair d))
    (items : List α) (d : Draft) : items.foldl step d =
      (items.flatMap demands).foldl (impose v) ((items.flatMap pairs).foldl allowPair d) := by
  induction items generalizing d with
  | nil => rfl
  | cons a items ih =>
    rw [List.foldl_cons, ih, hstep, foldl_allowPair_foldl_impose, List.flatMap_cons,
      List.flatMap_cons, List.foldl_append, List.foldl_append]

theorem attach_eq (source target : ClassId × Option Cardinality) (d : Draft) :
    d.attach v line source target =
      (Demand.optional line ⟨source.1, .sourceOf target.1⟩ source.2 ++
        Demand.optional line ⟨target.1, .targetOf source.1⟩ target.2).foldl (impose v)
          ([(source.1, target.1)].foldl allowPair d) := by
  rw [attach, narrow?_eq, narrow?_eq, List.foldl_append]
  rfl

theorem reportUnmatched_nil (side : Side) : d.reportUnmatched strict line side [] = d := by
  cases strict <;> simp [reportUnmatched]

/-- A rule reports first, then marks its pairs, then imposes its demands. -/
theorem addRule_eq (v : Vocabulary) (strict : Bool) (d : Draft) (rule : Rule) :
    d.addRule v strict rule = (rule.demands v).foldl (impose v)
      ((rule.statement.pairs v).foldl allowPair
        (d.reportStatement strict v rule.line rule.statement)) := by
  obtain ⟨line, statement⟩ := rule
  cases statement with
  | attachment sources targets =>
    have hinner (source : ClassId × Option Cardinality) (d : Draft) :
        (expandTokens v targets).foldl (fun d target => d.attach v line source target) d = _ :=
      foldl_of_step (fun target => [(source.1, target.1)])
        (fun target => Demand.optional line ⟨source.1, .sourceOf target.1⟩ source.2 ++
          Demand.optional line ⟨target.1, .targetOf source.1⟩ target.2)
        (fun d target => d.attach v line source target) (fun d target => attach_eq source target d)
        (expandTokens v targets) d
    exact foldl_of_step _ _ _ (fun d source => hinner source d) (expandTokens v sources) _
  | sourceAggregate sources =>
    have hreport : d.reportStatement strict v line (.sourceAggregate sources) =
        d.reportUnmatched strict line .left (unmatchedPatterns v sources) :=
      reportUnmatched_nil .right
    simp only [hreport, addRule, addStatement, Rule.demands, Statement.demands, Statement.pairs,
      narrow?_eq, List.foldl_flatMap, List.foldl_nil]
  | targetAggregate targets =>
    have hreport : d.reportStatement strict v line (.targetAggregate targets) =
        d.reportUnmatched strict line .right (unmatchedPatterns v targets) :=
      congrArg (reportUnmatched strict line .right _) (reportUnmatched_nil .left)
    simp only [hreport, addRule, addStatement, Rule.demands, Statement.demands, Statement.pairs,
      narrow?_eq, List.foldl_flatMap, List.foldl_nil]

/-! What the parts of a draft hang on. -/

theorem relation_impose (q : Demand) : (d.impose v q).relation = d.relation := by
  cases hq : d.table.get? q.position with
  | none => simp [impose, narrow, hq]
  | some entry => cases hi : entry.bound.intersect? q.range <;> simp [impose, narrow, hq, hi]

theorem relation_foldl_impose (demands : List Demand) :
    (demands.foldl (impose v) d).relation = d.relation := by
  induction demands generalizing d with
  | nil => rfl
  | cons q demands ih => exact ih.trans (relation_impose q)

theorem relation_foldl_allowPair (pairs : List (ClassId × ClassId)) :
    (pairs.foldl allowPair d).relation = pairs.foldl Relation.insertPair d.relation := by
  induction pairs generalizing d with
  | nil => rfl
  | cons pair pairs ih => exact ih

theorem reportStatement_keeps (s : Statement) :
    (d.reportStatement strict v line s).relation = d.relation ∧
      (d.reportStatement strict v line s).table = d.table := by
  cases strict <;> exact ⟨rfl, rfl⟩

theorem relation_addRule (rule : Rule) : (d.addRule v strict rule).relation =
    (rule.statement.pairs v).foldl Relation.insertPair d.relation := by
  rw [addRule_eq, relation_foldl_impose, relation_foldl_allowPair, (reportStatement_keeps _).1]

theorem relation_foldl_addRule (rules : List Rule) :
    (rules.foldl (addRule v strict) d).relation =
      (rules.flatMap fun rule => rule.statement.pairs v).foldl Relation.insertPair d.relation := by
  induction rules generalizing d with
  | nil => rfl
  | cons rule rules ih =>
    rw [List.foldl_cons, ih, relation_addRule, List.flatMap_cons, List.foldl_append]

theorem table_foldl_allowPair (pairs : List (ClassId × ClassId)) :
    (pairs.foldl allowPair d).table = d.table ∧ (pairs.foldl allowPair d).errors = d.errors := by
  induction pairs generalizing d with
  | nil => exact ⟨rfl, rfl⟩
  | cons pair pairs ih => exact ih

/-! Errors are only ever added. -/

theorem errors_impose (q : Demand) : d.errors <+: (d.impose v q).errors := by
  cases hq : d.table.get? q.position with
  | none => simp [impose, narrow, hq]
  | some entry => cases hi : entry.bound.intersect? q.range <;> simp [impose, narrow, hq, hi]

theorem errors_foldl_impose (demands : List Demand) :
    d.errors <+: (demands.foldl (impose v) d).errors := by
  induction demands generalizing d with
  | nil => exact List.prefix_rfl
  | cons q demands ih => exact (errors_impose q).trans ih

theorem errors_reportStatement (s : Statement) :
    d.errors <+: (d.reportStatement strict v line s).errors := by
  cases strict <;> simp [reportStatement, reportUnmatched]

theorem errors_addRule (rule : Rule) : d.errors <+: (d.addRule v strict rule).errors := by
  rw [addRule_eq]
  refine List.IsPrefix.trans ?_ (errors_foldl_impose _)
  rw [(table_foldl_allowPair _).2]
  exact errors_reportStatement _

theorem errors_foldl_addRule (rules : List Rule) :
    d.errors <+: (rules.foldl (addRule v strict) d).errors := by
  induction rules generalizing d with
  | nil => exact List.prefix_rfl
  | cons rule rules ih => exact (errors_addRule rule).trans ih

end Draft

def draftOf (rules : List Rule) (v : Vocabulary) (strict : Bool) : Draft :=
  rules.foldl (Draft.addRule v strict) (.empty v)

theorem compile_eq_ok {rules : List Rule} {v : Vocabulary} {strict : Bool} {out : Compilation}
    (h : compile rules v strict = .ok out) : (draftOf rules v strict).errors = [] ∧
      out.grammar.vocabulary = v ∧
      out.grammar.relation = (draftOf rules v strict).relation ∧
      out.grammar.bounds = (draftOf rules v strict).table.mapValues Entry.bound := by
  change (draftOf rules v strict).finish v rules.length = .ok out at h
  simp only [Draft.finish] at h
  split at h
  · rename_i herrors
    obtain rfl := Except.ok.inj h
    exact ⟨(List.append_eq_nil_iff.mp herrors).1, rfl, rfl, rfl⟩
  · cases h

end AttachmentGrammar
