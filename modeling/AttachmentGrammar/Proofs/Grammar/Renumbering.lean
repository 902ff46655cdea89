import AttachmentGrammar.Proofs.Grammar.Outcome
import Mathlib.Data.List.Basic
import Mathlib.Data.Set.Function
/-!
Line numbers. Main statement: compiling carries the lines of the rules and looks only at which of
them are the same, so rules with other lines, kept apart where they were, compile to the same with
the lines replaced.
-/
namespace AttachmentGrammar

variable {f : Nat → Nat} {S : Set Nat} {v : Vocabulary} {strict : Bool}

/-! Lines replaced throughout. -/

def Warning.renumber (f : Nat → Nat) : Warning → Warning
  | unmatchedPattern line side pattern => unmatchedPattern (f line) side pattern
  | unsatisfiableBound line className role bound =>
    unsatisfiableBound (f line) className role bound

def CompileError.renumber (f : Nat → Nat) : CompileError → CompileError
  | unmatchedPattern line side pattern => unmatchedPattern (f line) side pattern
  | conflictingCardinality className role existing existingLines incoming incomingLine =>
    conflictingCardinality className role existing (existingLines.map f) incoming (f incomingLine)
  | orphanCardinality className role bound line => orphanCardinality className role bound (f line)

def Compilation.renumber (f : Nat → Nat) (out : Compilation) : Compilation :=
  { out with warnings := out.warnings.map (Warning.renumber f) }

def Rule.renumber (f : Nat → Nat) (rule : Rule) : Rule := { rule with line := f rule.line }

def Unmatched.renumber (f : Nat → Nat) (u : Unmatched) : Unmatched := { u with line := f u.line }

def Demand.renumber (f : Nat → Nat) (q : Demand) : Demand := { q with line := f q.line }

def Entry.renumber (f : Nat → Nat) (entry : Entry) : Entry :=
  { entry with lines := entry.lines.map f }

def Clash.renumber (f : Nat → Nat) (c : Clash) : Clash :=
  ⟨c.demand.renumber f, c.held.renumber f⟩

def Table.renumber (f : Nat → Nat) (t : Table) : Table := t.mapValues (Entry.renumber f)

def Draft.renumber (f : Nat → Nat) (d : Draft) : Draft where
  relation := d.relation
  table := Table.renumber f d.table
  warnings := d.warnings.map (Warning.renumber f)
  errors := d.errors.map (CompileError.renumber f)

/-! One rule. -/

theorem Demand.optional_renumber (line : Nat) (position : Position) (range : Option Cardinality) :
    Demand.optional (f line) position range =
      (Demand.optional line position range).map (Demand.renumber f) := by
  cases range <;> rfl

theorem Statement.demands_renumber (s : Statement) (line : Nat) :
    s.demands v (f line) = (s.demands v line).map (Demand.renumber f) := by
  cases s <;>
    simp [demands, List.map_flatMap, Demand.optional_renumber]

theorem Rule.demands_renumber (rule : Rule) :
    (rule.renumber f).demands v = (rule.demands v).map (Demand.renumber f) :=
  rule.statement.demands_renumber rule.line

theorem Rule.unmatched_renumber (rule : Rule) :
    (rule.renumber f).unmatched v = (rule.unmatched v).map (Unmatched.renumber f) := by
  simp [Rule.unmatched, Rule.renumber, Unmatched.renumber, Function.comp_def]

theorem Demand.line_of_mem_optional {line : Nat} {position : Position} {range : Option Cardinality}
    {q : Demand} (h : q ∈ Demand.optional line position range) : q.line = line := by
  cases range with
  | none => cases h
  | some range =>
    obtain rfl := List.mem_singleton.mp h
    rfl

theorem Rule.line_of_mem_demands {rule : Rule} {q : Demand} (h : q ∈ rule.demands v) :
    q.line = rule.line := by
  obtain ⟨line, statement⟩ := rule
  cases statement with
  | attachment sources targets =>
    obtain ⟨source, -, h⟩ := List.mem_flatMap.mp h
    obtain ⟨target, -, h⟩ := List.mem_flatMap.mp h
    rcases List.mem_append.mp h with h | h
    · exact Demand.line_of_mem_optional h
    · exact Demand.line_of_mem_optional h
  | sourceAggregate sources =>
    obtain ⟨source, -, h⟩ := List.mem_flatMap.mp h
    exact Demand.line_of_mem_optional h
  | targetAggregate targets =>
    obtain ⟨target, -, h⟩ := List.mem_flatMap.mp h
    exact Demand.line_of_mem_optional h

/-! What is reported. -/

theorem Clash.error_renumber (c : Clash) : (c.renumber f).error v = (c.error v).renumber f := rfl

theorem Unmatched.error_renumber (u : Unmatched) :
    (u.renumber f).error = u.error.renumber f := rfl

theorem Unmatched.warning_renumber (u : Unmatched) :
    (u.renumber f).warning = u.warning.renumber f := rfl

/-! The table. -/

namespace Table

variable {t : Table} {q : Demand} {qs : List Demand} {p : Position}

/-- Every entry has lines, all of them in the set. -/
def LinesIn (S : Set Nat) (t : Table) : Prop :=
  ∀ p entry, t.get? p = some entry → entry.lines ≠ [] ∧ ∀ line ∈ entry.lines, line ∈ S

theorem linesIn_empty : LinesIn S .empty := nofun

theorem linesIn_insert {entry : Entry} (h : t.LinesIn S) (hsome : entry.lines ≠ [])
    (hlines : ∀ line ∈ entry.lines, line ∈ S) : LinesIn S (t.insert p entry) := by
  intro p' entry' hget
  rw [SortedMap.get?_insert_eq] at hget
  split at hget
  · obtain rfl := Option.some.inj hget
    exact ⟨hsome, hlines⟩
  · exact h p' entry' hget

theorem linesIn_settle (h : t.LinesIn S) (hq : q.line ∈ S) : (t.settle q).LinesIn S := by
  rw [settle]
  split
  · refine linesIn_insert h (List.cons_ne_nil _ _) fun line hline => ?_
    rwa [List.mem_singleton.mp hline]
  · rename_i entry hentry
    obtain ⟨hsome, hlines⟩ := h _ _ hentry
    split
    · exact h
    · refine linesIn_insert h ?_ ?_
      · split
        · exact hsome
        · exact List.append_ne_nil_of_left_ne_nil hsome _
      · intro line hline
        split at hline
        · exact hlines line hline
        · rcases List.mem_append.mp hline with hline | hline
          · exact hlines line hline
          · rwa [List.mem_singleton.mp hline]

theorem linesIn_foldl_settle (h : t.LinesIn S) (hqs : ∀ q ∈ qs, q.line ∈ S) :
    (qs.foldl settle t).LinesIn S := by
  induction qs generalizing t with
  | nil => exact h
  | cons q qs ih =>
    obtain ⟨hq, hqs⟩ := List.forall_mem_cons.mp hqs
    exact ih (linesIn_settle h hq) hqs

theorem get?_renumber : (t.renumber f).get? p = (t.get? p).map (Entry.renumber f) :=
  SortedMap.get?_mapValues _ t p

theorem insert_renumber (entry : Entry) :
    Table.renumber f (t.insert p entry) = (t.renumber f).insert p (entry.renumber f) := by
  apply SortedMap.ext_get?
  intro p'
  rw [get?_renumber, SortedMap.get?_insert_eq, SortedMap.get?_insert_eq, get?_renumber]
  split <;> rfl

/-- On lines of the set, a line is among others exactly if it is after the replacement. -/
theorem mem_map_iff_of_injOn (hf : S.InjOn f) {lines : List Nat} {line : Nat}
    (hlines : ∀ line ∈ lines, line ∈ S) (hline : line ∈ S) :
    f line ∈ lines.map f ↔ line ∈ lines := by
  constructor
  · intro h
    obtain ⟨line', hline', heq⟩ := List.mem_map.mp h
    rwa [← hf (hlines line' hline') hline heq]
  · exact List.mem_map_of_mem

theorem settle_renumber (hf : S.InjOn f) (h : t.LinesIn S) (hq : q.line ∈ S) :
    (t.renumber f).settle (q.renumber f) = (t.settle q).renumber f := by
  have hget : (t.renumber f).get? (q.renumber f).position =
      (t.get? q.position).map (Entry.renumber f) := get?_renumber
  rw [settle, settle, hget]
  cases hentry : t.get? q.position with
  | none =>
    refine Eq.trans ?_ (insert_renumber ⟨q.range, [q.line]⟩).symm
    rfl
  | some entry =>
    have hbound : (entry.renumber f).bound.intersect? (q.renumber f).range =
        entry.bound.intersect? q.range := rfl
    simp only [Option.map_some, hbound]
    cases entry.bound.intersect? q.range with
    | none => rfl
    | some bound =>
      -- a line is added after the replacement exactly if it was added before
      have hmem := mem_map_iff_of_injOn hf (h _ _ hentry).2 hq
      refine Eq.trans ?_ (insert_renumber _).symm
      by_cases hline : q.line ∈ entry.lines
      · simp [Entry.renumber, Demand.renumber, hline, hmem]
      · simp [Entry.renumber, Demand.renumber, hline, hmem]

theorem clash?_renumber :
    (t.renumber f).clash? (q.renumber f) = (t.clash? q).map (Clash.renumber f) := by
  have hget : (t.renumber f).get? (q.renumber f).position =
      (t.get? q.position).map (Entry.renumber f) := get?_renumber
  rw [clash?, clash?, hget]
  cases t.get? q.position with
  | none => rfl
  | some entry =>
    have hbound : (entry.renumber f).bound.intersect? (q.renumber f).range =
        entry.bound.intersect? q.range := rfl
    simp only [Option.map_some, hbound]
    split <;> rfl

theorem foldl_settle_renumber (hf : S.InjOn f) (h : t.LinesIn S) (hqs : ∀ q ∈ qs, q.line ∈ S) :
    (qs.map (Demand.renumber f)).foldl settle (t.renumber f) =
      (qs.foldl settle t).renumber f := by
  induction qs generalizing t with
  | nil => rfl
  | cons q qs ih =>
    obtain ⟨hq, hqs⟩ := List.forall_mem_cons.mp hqs
    rw [List.map_cons, List.foldl_cons, settle_renumber hf h hq, ih (linesIn_settle h hq) hqs,
      List.foldl_cons]

theorem clashes_renumber (hf : S.InjOn f) (h : t.LinesIn S) (hqs : ∀ q ∈ qs, q.line ∈ S) :
    (t.renumber f).clashes (qs.map (Demand.renumber f)) =
      (t.clashes qs).map (Clash.renumber f) := by
  induction qs generalizing t with
  | nil => rfl
  | cons q qs ih =>
    obtain ⟨hq, hqs⟩ := List.forall_mem_cons.mp hqs
    have hfirst : ((t.renumber f).clash? (q.renumber f)).toList =
        (t.clash? q).toList.map (Clash.renumber f) := by
      rw [clash?_renumber, Option.toList_map]
    rw [List.map_cons, clashes, clashes, hfirst, settle_renumber hf h hq,
      ih (linesIn_settle h hq) hqs, List.map_append]

end Table

/-! The draft. -/

namespace Draft

variable {d : Draft} {rule : Rule} {rules : List Rule}

theorem linesIn_addRule (h : Table.LinesIn S d.table) (hrule : rule.line ∈ S) :
    Table.LinesIn S (d.addRule v strict rule).table := by
  rw [addRule_eq_parts]
  refine Table.linesIn_foldl_settle h fun q hq => ?_
  rwa [Rule.line_of_mem_demands hq]

/-- One rule with its line replaced does to the draft what the rule did. -/
theorem addRule_renumber (hf : S.InjOn f) (h : Table.LinesIn S d.table) (hrule : rule.line ∈ S) :
    (d.renumber f).addRule v strict (rule.renumber f) =
      (d.addRule v strict rule).renumber f := by
  have hdemands : ∀ q ∈ rule.demands v, q.line ∈ S := by
    intro q hq
    rwa [Rule.line_of_mem_demands hq]
  have htable := Table.foldl_settle_renumber hf h hdemands
  have hclashes := Table.clashes_renumber hf h hdemands
  rw [addRule_eq_parts, addRule_eq_parts, Rule.demands_renumber, Rule.unmatched_renumber]
  cases strict <;>
    simp [renumber, Rule.renumber, htable, hclashes, Clash.error_renumber,
      Unmatched.error_renumber, Unmatched.warning_renumber, Function.comp_def]

theorem foldl_addRule_renumber (hf : S.InjOn f) (h : Table.LinesIn S d.table)
    (hrules : ∀ rule ∈ rules, rule.line ∈ S) :
    (rules.map (Rule.renumber f)).foldl (addRule v strict) (d.renumber f) =
      (rules.foldl (addRule v strict) d).renumber f := by
  induction rules generalizing d with
  | nil => rfl
  | cons rule rules ih =>
    obtain ⟨hrule, hrules⟩ := List.forall_mem_cons.mp hrules
    rw [List.map_cons, List.foldl_cons, addRule_renumber hf h hrule,
      ih (linesIn_addRule h hrule) hrules, List.foldl_cons]

theorem linesIn_foldl_addRule (h : Table.LinesIn S d.table)
    (hrules : ∀ rule ∈ rules, rule.line ∈ S) :
    Table.LinesIn S (rules.foldl (addRule v strict) d).table := by
  induction rules generalizing d with
  | nil => exact h
  | cons rule rules ih =>
    obtain ⟨hrule, hrules⟩ := List.forall_mem_cons.mp hrules
    exact ih (linesIn_addRule h hrule) hrules

theorem headD_map_lines {entry : Entry} (h : entry.lines ≠ []) :
    (entry.renumber f).lines.headD 0 = f (entry.lines.headD 0) := by
  obtain ⟨line, lines, hlines⟩ := List.exists_cons_of_ne_nil h
  rw [Entry.renumber, hlines]
  rfl

theorem orphan?_renumber {relation : Relation} {p : Position} {entry : Entry}
    (h : entry.lines ≠ []) : orphan? v relation p (entry.renumber f) =
      (orphan? v relation p entry).map (CompileError.renumber f) := by
  rw [orphan?, orphan?, headD_map_lines h]
  split <;> rfl

theorem unsatisfiable?_renumber {relation : Relation} {p : Position} {entry : Entry}
    (h : entry.lines ≠ []) : unsatisfiable? v relation p (entry.renumber f) =
      (unsatisfiable? v relation p entry).map (Warning.renumber f) := by
  rw [unsatisfiable?, unsatisfiable?, headD_map_lines h]
  have hbound : (entry.renumber f).bound = entry.bound := rfl
  rw [hbound]
  split <;> rfl

theorem orphans_renumber (h : Table.LinesIn S d.table) :
    (d.renumber f).orphans v = (d.orphans v).map (CompileError.renumber f) := by
  have htable : (d.renumber f).table.toList =
      d.table.toList.map fun e => (e.1, e.2.renumber f) := rfl
  rw [orphans, orphans, htable, List.filterMap_map, List.map_filterMap]
  refine List.filterMap_congr fun e he => ?_
  exact orphan?_renumber (h e.1 e.2 (SortedMap.mem_toList_iff.mp he)).1

theorem unsatisfiable_renumber (h : Table.LinesIn S d.table) :
    (d.renumber f).unsatisfiable v = (d.unsatisfiable v).map (Warning.renumber f) := by
  have htable : (d.renumber f).table.toList =
      d.table.toList.map fun e => (e.1, e.2.renumber f) := rfl
  rw [unsatisfiable, unsatisfiable, htable, List.filterMap_map, List.map_filterMap]
  refine List.filterMap_congr fun e he => ?_
  exact unsatisfiable?_renumber (h e.1 e.2 (SortedMap.mem_toList_iff.mp he)).1

end Draft

/-! The outcome. -/

variable {rules : List Rule}

theorem linesIn_draftOf (hrules : ∀ rule ∈ rules, rule.line ∈ S) :
    Table.LinesIn S (draftOf rules v strict).table :=
  Draft.linesIn_foldl_addRule Table.linesIn_empty hrules

theorem draftOf_renumber (hf : S.InjOn f) (hrules : ∀ rule ∈ rules, rule.line ∈ S) :
    draftOf (rules.map (Rule.renumber f)) v strict = (draftOf rules v strict).renumber f :=
  Draft.foldl_addRule_renumber (d := .empty v) hf Table.linesIn_empty hrules

theorem reported_renumber (hf : S.InjOn f) (hrules : ∀ rule ∈ rules, rule.line ∈ S) :
    reported (rules.map (Rule.renumber f)) v strict =
      (reported rules v strict).map (CompileError.renumber f) := by
  rw [reported, draftOf_renumber hf hrules, Draft.orphans_renumber (linesIn_draftOf hrules),
    reported, List.map_append]
  rfl

theorem accepted_renumber (hf : S.InjOn f) (hrules : ∀ rule ∈ rules, rule.line ∈ S) :
    accepted (rules.map (Rule.renumber f)) v strict = (accepted rules v strict).renumber f := by
  have hbounds (t : Table) :
      (Table.renumber f t).mapValues Entry.bound = t.mapValues Entry.bound := by
    apply SortedMap.ext_get?
    intro p
    rw [SortedMap.get?_mapValues, SortedMap.get?_mapValues, Table.get?_renumber, Option.map_map]
    rfl
  have hwarnings : (accepted (rules.map (Rule.renumber f)) v strict).warnings =
      (accepted rules v strict).warnings.map (Warning.renumber f) := by
    rw [accepted, draftOf_renumber hf hrules,
      Draft.unsatisfiable_renumber (linesIn_draftOf hrules), accepted, List.map_append]
    rfl
  have hgrammar : (accepted (rules.map (Rule.renumber f)) v strict).grammar =
      (accepted rules v strict).grammar := by
    simp only [accepted, draftOf_renumber hf hrules, Draft.renumber, hbounds, List.length_map]
  rw [Compilation.renumber, ← hwarnings, ← hgrammar]

def Rule.lines (rules : List Rule) : Set Nat := {line | ∃ rule ∈ rules, rule.line = line}

/-- Rules with other lines, the same ones where they were the same, compile to the same with the
lines replaced. -/
theorem compile_renumber (hf : (Rule.lines rules).InjOn f) :
    compile (rules.map (Rule.renumber f)) v strict =
      match compile rules v strict with
      | .ok out => .ok (out.renumber f)
      | .error errors => .error (errors.map (CompileError.renumber f)) := by
  have hrules : ∀ rule ∈ rules, rule.line ∈ Rule.lines rules := fun rule hrule => ⟨rule, hrule, rfl⟩
  rw [compile_eq, compile_eq, reported_renumber hf hrules, accepted_renumber hf hrules]
  by_cases hnone : reported rules v strict = []
  · simp [hnone]
  · simp [hnone]

end AttachmentGrammar
