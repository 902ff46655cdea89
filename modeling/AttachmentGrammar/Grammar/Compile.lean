import AttachmentGrammar.Grammar.Basic
import AttachmentGrammar.Grammar.Finding
/-!
Compiling rules against the known classes. Every rule adds its pairs and its bounds to a draft; a
bound for a class and role that has one already is narrowed to the counts that both hold. A draft
without errors becomes a grammar, otherwise all errors are returned.
-/
namespace AttachmentGrammar

structure Entry where
  bound : Cardinality
  lines : List Nat
  deriving DecidableEq, Repr

structure Draft where
  relation : Relation
  table : SortedMap Position Entry
  warnings : List Warning
  errors : List CompileError
  deriving DecidableEq

structure Compilation where
  grammar : Grammar
  warnings : List Warning
  deriving DecidableEq

/-- A range that holds every count bounds nothing. -/
def Token.bound? (t : Token) : Option Cardinality :=
  t.cardinality.filter fun c => !c.isUnbounded

def expandTokens (v : Vocabulary) (tokens : List Token) : List (ClassId × Option Cardinality) :=
  tokens.flatMap fun t => (v.expand t.pattern).map fun id => (id, t.bound?)

def unmatchedPatterns (v : Vocabulary) (tokens : List Token) : List String :=
  (tokens.filter fun t => (v.expand t.pattern).isEmpty).map fun t => t.pattern.text

namespace Draft

def empty (v : Vocabulary) : Draft where
  relation := .empty v.size
  table := .empty
  warnings := []
  errors := []

/-- Strict reading makes a pattern that covers no class an error. -/
def reportUnmatched (strict : Bool) (line : Nat) (side : Side) (patterns : List String)
    (d : Draft) : Draft :=
  if strict then { d with errors := d.errors ++ patterns.map (.unmatchedPattern line side) }
  else { d with warnings := d.warnings ++ patterns.map (.unmatchedPattern line side) }

def allow (source target : ClassId) (d : Draft) : Draft :=
  { d with relation := d.relation.insert source target }

/-- Ranges without a common count are a conflict, and the earlier range stays. -/
def narrow (v : Vocabulary) (line : Nat) (position : Position) (incoming : Cardinality)
    (d : Draft) : Draft :=
  match d.table.get? position with
  | none => { d with table := d.table.insert position ⟨incoming, [line]⟩ }
  | some entry =>
    match entry.bound.intersect? incoming with
    | some bound =>
      let lines := if line ∈ entry.lines then entry.lines else entry.lines ++ [line]
      { d with table := d.table.insert position ⟨bound, lines⟩ }
    | none =>
      { d with errors := d.errors ++ [.conflictingCardinality (v.name position.classId)
          (position.role.map v.name) entry.bound entry.lines incoming line] }

def narrow? (v : Vocabulary) (line : Nat) (position : Position) : Option Cardinality → Draft → Draft
  | none, d => d
  | some incoming, d => d.narrow v line position incoming

def attach (v : Vocabulary) (line : Nat) (source target : ClassId × Option Cardinality)
    (d : Draft) : Draft :=
  ((d.allow source.1 target.1).narrow? v line ⟨source.1, .sourceOf target.1⟩ source.2).narrow? v
    line ⟨target.1, .targetOf source.1⟩ target.2

def addStatement (v : Vocabulary) (strict : Bool) (line : Nat) (d : Draft) : Statement → Draft
  | .attachment sources targets =>
    let d := d.reportUnmatched strict line .left (unmatchedPatterns v sources)
    let d := d.reportUnmatched strict line .right (unmatchedPatterns v targets)
    (expandTokens v sources).foldl (fun d source =>
      (expandTokens v targets).foldl (fun d target => d.attach v line source target) d) d
  | .sourceAggregate sources =>
    (expandTokens v sources).foldl (fun d source => d.narrow? v line ⟨source.1, .source⟩ source.2)
      (d.reportUnmatched strict line .left (unmatchedPatterns v sources))
  | .targetAggregate targets =>
    (expandTokens v targets).foldl (fun d target => d.narrow? v line ⟨target.1, .target⟩ target.2)
      (d.reportUnmatched strict line .right (unmatchedPatterns v targets))

def addRule (v : Vocabulary) (strict : Bool) (d : Draft) (rule : Rule) : Draft :=
  d.addStatement v strict rule.line rule.statement

def attaches (relation : Relation) (position : Position) : Bool :=
  match position.role with
  | .source => relation.hasOutgoing position.classId
  | .target => relation.hasIncoming position.classId
  | .sourceOf _ | .targetOf _ => true

def isOrphan (relation : Relation) (position : Position) : Bool :=
  !relation.hasOutgoing position.classId && !relation.hasIncoming position.classId

def orphan? (v : Vocabulary) (relation : Relation) (position : Position) (entry : Entry) :
    Option CompileError :=
  if isOrphan relation position then
    some (.orphanCardinality (v.name position.classId) (position.role.map v.name) entry.bound
      (entry.lines.headD 0))
  else none

/-- A class that never attaches in the bounded direction always has the count 0 there. -/
def unsatisfiable? (v : Vocabulary) (relation : Relation) (position : Position) (entry : Entry) :
    Option Warning :=
  if !isOrphan relation position && !attaches relation position && !entry.bound.contains 0 then
    some (.unsatisfiableBound (entry.lines.headD 0) (v.name position.classId)
      (position.role.map v.name) entry.bound)
  else none

def checkTable (v : Vocabulary) (d : Draft) : Draft :=
  { d with
    errors := d.errors ++ d.table.toList.filterMap fun (p, e) => orphan? v d.relation p e
    warnings := d.warnings ++
      d.table.toList.filterMap fun (p, e) => unsatisfiable? v d.relation p e }

def finish (v : Vocabulary) (ruleCount : Nat) (d : Draft) :
    Except (List CompileError) Compilation :=
  let d := d.checkTable v
  if d.errors = [] then
    .ok {
      grammar := {
        vocabulary := v
        relation := d.relation
        bounds := d.table.mapValues Entry.bound
        ruleCount := ruleCount }
      warnings := d.warnings }
  else .error d.errors

end Draft

def compile (rules : List Rule) (v : Vocabulary) (strict : Bool) :
    Except (List CompileError) Compilation :=
  (rules.foldl (Draft.addRule v strict) (.empty v)).finish v rules.length

def Compilation.ofText (text : String) (v : Vocabulary) (strict : Bool) :
    Except GrammarError Compilation :=
  match parseRules text with
  | .error errors => .error (.malformed errors)
  | .ok rules => (compile rules v strict).mapError .inconsistent

end AttachmentGrammar
