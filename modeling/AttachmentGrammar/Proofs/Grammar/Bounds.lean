import AttachmentGrammar.Proofs.Cardinality
import AttachmentGrammar.Proofs.Grammar.Draft
/-!
The bounds of a compiled grammar. Main statement: a class in a role is bound to the narrowest of the
ranges that the rules give it there, and is without a bound exactly if they give none.
-/
namespace AttachmentGrammar

open Cardinality (narrowest)

/-- The tokens of a statement that speak of a class in a role. -/
def Statement.tokensFor (name : String) : Role String → Statement → List Token
  | .source, sourceAggregate sources => sources.filter (·.pattern.covers name)
  | .target, targetAggregate targets => targets.filter (·.pattern.covers name)
  | .sourceOf other, attachment sources targets =>
    if targets.any (·.pattern.covers other) then sources.filter (·.pattern.covers name) else []
  | .targetOf other, attachment sources targets =>
    if sources.any (·.pattern.covers other) then targets.filter (·.pattern.covers name) else []
  | _, _ => []

/-- The ranges that rules give a class in a role; a range that holds every count is none. -/
def contributions (rules : List Rule) (name : String) (role : Role String) : List Cardinality :=
  rules.flatMap fun rule => (rule.statement.tokensFor name role).filterMap Token.bound?

/-! What the rules ask for at a position. -/

variable {v : Vocabulary}

def asked (demands : List Demand) (p : Position) : List Cardinality :=
  (demands.filter fun q => q.position = p).map Demand.range

theorem mem_asked {demands : List Demand} {p : Position} {c : Cardinality} :
    c ∈ asked demands p ↔ ∃ line, ⟨p, c, line⟩ ∈ demands := by
  simp only [asked, List.mem_map, List.mem_filter, decide_eq_true_eq]
  constructor
  · intro h
    obtain ⟨q, ⟨hq, rfl⟩, rfl⟩ := h
    exact ⟨q.line, hq⟩
  · intro h
    obtain ⟨line, hq⟩ := h
    exact ⟨_, ⟨hq, rfl⟩, rfl⟩

theorem asked_concat (demands : List Demand) (q : Demand) (p : Position) :
    asked (demands ++ [q]) p = asked demands p ++ if q.position = p then [q.range] else [] := by
  by_cases h : q.position = p <;> simp [asked, h]

theorem mem_optional {line line' : Nat} {p p' : Position} {c : Cardinality}
    {range : Option Cardinality} : ⟨p', c, line'⟩ ∈ Demand.optional line p range ↔
      p' = p ∧ range = some c ∧ line' = line := by
  cases range with
  | none => simp [Demand.optional]
  | some d => simp [Demand.optional, eq_comm]

theorem mem_expandTokens_some {tokens : List Token} {id : ClassId} {name : String} {c : Cardinality}
    (h : v.name? id = some name) : (id, some c) ∈ expandTokens v tokens ↔
      c ∈ (tokens.filter (·.pattern.covers name)).filterMap Token.bound? := by
  simp only [mem_expandTokens, h, Option.some.injEq, exists_eq_left', List.mem_filterMap,
    List.mem_filter, and_assoc]

/-- An attachment rule asks its left side for the other class and its right side for the one. -/
theorem mem_demands_attachment {sources targets : List Token} {p : Position} {c : Cardinality}
    {line line' : Nat} :
    ⟨p, c, line'⟩ ∈ (Statement.attachment sources targets).demands v line ↔ line' = line ∧
      ∃ s t, (p = ⟨s, .sourceOf t⟩ ∧ (s, some c) ∈ expandTokens v sources ∧
          ∃ range, (t, range) ∈ expandTokens v targets) ∨
        (p = ⟨t, .targetOf s⟩ ∧ (t, some c) ∈ expandTokens v targets ∧
          ∃ range, (s, range) ∈ expandTokens v sources) := by
  simp only [Statement.demands, List.mem_flatMap, List.mem_append, mem_optional, Prod.exists]
  constructor
  · intro h
    obtain ⟨s, range, hs, t, range', ht, ⟨hp, rfl, hline⟩ | ⟨hp, rfl, hline⟩⟩ := h
    · exact ⟨hline, s, t, .inl ⟨hp, hs, range', ht⟩⟩
    · exact ⟨hline, s, t, .inr ⟨hp, ht, range, hs⟩⟩
  · intro h
    obtain ⟨hline, s, t, ⟨hp, hs, range, ht⟩ | ⟨hp, ht, range, hs⟩⟩ := h
    · exact ⟨s, some c, hs, t, range, ht, .inl ⟨hp, rfl, hline⟩⟩
    · exact ⟨s, range, hs, t, some c, ht, .inr ⟨hp, rfl, hline⟩⟩

/-- An aggregate rule asks every class of its one side. -/
theorem mem_demands_aggregate {tokens : List Token} {role : Role ClassId} {p : Position}
    {c : Cardinality} {line line' : Nat} :
    ⟨p, c, line'⟩ ∈ (expandTokens v tokens).flatMap
        (fun token => Demand.optional line ⟨token.1, role⟩ token.2) ↔
      line' = line ∧ ∃ id, p = ⟨id, role⟩ ∧ (id, some c) ∈ expandTokens v tokens := by
  simp only [List.mem_flatMap, mem_optional, Prod.exists]
  constructor
  · intro h
    obtain ⟨id, range, hmem, hp, rfl, hline⟩ := h
    exact ⟨hline, id, hp, hmem⟩
  · intro h
    obtain ⟨hline, id, hp, hmem⟩ := h
    exact ⟨id, some c, hmem, hp, rfl, hline⟩

/-- The tokens of one side speak of a class towards another if the other side covers that one. -/
theorem mem_scoped {own others : List Token} {id other : ClassId} {name otherName : String}
    {c : Cardinality} (hid : v.name? id = some name) (hother : v.name? other = some otherName) :
    c ∈ (if others.any (·.pattern.covers otherName) then own.filter (·.pattern.covers name)
        else []).filterMap Token.bound? ↔
      (id, some c) ∈ expandTokens v own ∧ ∃ range, (other, range) ∈ expandTokens v others := by
  rw [mem_expandTokens_some hid, exists_mem_expandTokens hother, ← List.any_eq_true]
  split
  · rename_i hany
    simp [hany]
  · rename_i hany
    simp [hany]

/-- The demands of a statement on a class in a role come from the tokens that speak of it. -/
theorem Statement.mem_demands {statement : Statement} {id : ClassId} {key : Role ClassId}
    {name : String} {role : Role String} {c : Cardinality} {line line' : Nat}
    (hid : v.name? id = some name) (hrole : key.mapM? v.name? = some role) :
    ⟨⟨id, key⟩, c, line'⟩ ∈ statement.demands v line ↔
      line' = line ∧ c ∈ (statement.tokensFor name role).filterMap Token.bound? := by
  cases statement with
  | attachment sources targets =>
    rw [mem_demands_attachment]
    cases key with
    | source =>
      obtain rfl := Option.some.inj hrole
      simp [tokensFor]
    | target =>
      obtain rfl := Option.some.inj hrole
      simp [tokensFor]
    | sourceOf other =>
      obtain ⟨otherName, hother, rfl⟩ := Option.map_eq_some_iff.mp hrole
      rw [tokensFor, mem_scoped hid hother]
      simp [and_assoc]
    | targetOf other =>
      obtain ⟨otherName, hother, rfl⟩ := Option.map_eq_some_iff.mp hrole
      rw [tokensFor, mem_scoped hid hother]
      simp [and_assoc]
  | sourceAggregate sources =>
    rw [demands, mem_demands_aggregate]
    cases key with
    | source =>
      obtain rfl := Option.some.inj hrole
      rw [tokensFor, ← mem_expandTokens_some hid]
      simp
    | target =>
      obtain rfl := Option.some.inj hrole
      simp [tokensFor]
    | sourceOf other =>
      obtain ⟨otherName, -, rfl⟩ := Option.map_eq_some_iff.mp hrole
      simp [tokensFor]
    | targetOf other =>
      obtain ⟨otherName, -, rfl⟩ := Option.map_eq_some_iff.mp hrole
      simp [tokensFor]
  | targetAggregate targets =>
    rw [demands, mem_demands_aggregate]
    cases key with
    | target =>
      obtain rfl := Option.some.inj hrole
      rw [tokensFor, ← mem_expandTokens_some hid]
      simp
    | source =>
      obtain rfl := Option.some.inj hrole
      simp [tokensFor]
    | sourceOf other =>
      obtain ⟨otherName, -, rfl⟩ := Option.map_eq_some_iff.mp hrole
      simp [tokensFor]
    | targetOf other =>
      obtain ⟨otherName, -, rfl⟩ := Option.map_eq_some_iff.mp hrole
      simp [tokensFor]

/-! The table of a draft without errors. -/

namespace Draft

/-- The table binds every position to the narrowest of the ranges asked for so far. -/
def Settled (d : Draft) (done : List Demand) : Prop :=
  ∀ p, (d.table.get? p).map Entry.bound = narrowest (asked done p)

variable {d : Draft} {done : List Demand} {strict : Bool}

theorem settled_empty (v : Vocabulary) : (empty v).Settled [] := fun _ => rfl

/-- A range asked for is met with what the table holds; without a conflict nothing is lost. -/
theorem settled_impose {q : Demand} (hd : d.Settled done) (h : (d.impose v q).errors = []) :
    (d.impose v q).Settled (done ++ [q]) := by
  intro p
  have hnarrow : ∃ entry : Entry, (d.impose v q).table = d.table.insert q.position entry ∧
      narrowest (asked done q.position ++ [q.range]) = some entry.bound := by
    have hq := hd q.position
    simp only [impose, narrow] at h ⊢
    split at h
    · rename_i hnone
      rw [hnone, Option.map_none, eq_comm, Cardinality.narrowest_eq_none_iff] at hq
      exact ⟨⟨q.range, [q.line]⟩, rfl, by rw [hq]; exact Cardinality.narrowest_singleton q.range⟩
    · rename_i entry hsome
      rw [hsome, Option.map_some] at hq
      split at h
      · rename_i bound hbound
        exact ⟨_, rfl, Cardinality.narrowest_concat hq.symm hbound⟩
      · simp at h
  obtain ⟨entry, htable, hbound⟩ := hnarrow
  rw [htable, SortedMap.get?_insert_eq]
  by_cases hp : p = q.position
  · subst hp
    rw [if_pos rfl, Option.map_some, ← hbound, asked_concat, if_pos rfl]
  · rw [if_neg hp, asked_concat, if_neg (Ne.symm hp), List.append_nil]
    exact hd p

theorem settled_foldl_impose {demands : List Demand} (hd : d.Settled done)
    (h : (demands.foldl (impose v) d).errors = []) :
    (demands.foldl (impose v) d).Settled (done ++ demands) := by
  induction demands generalizing d done with
  | nil => simpa using hd
  | cons q demands ih =>
    have hq : (d.impose v q).errors = [] := by
      have hprefix : (d.impose v q).errors <+: ((q :: demands).foldl (impose v) d).errors :=
        errors_foldl_impose demands
      rw [h] at hprefix
      exact List.prefix_nil.mp hprefix
    rw [List.append_cons]
    exact ih (settled_impose hd hq) h

theorem settled_addRule {rule : Rule} (hd : d.Settled done)
    (h : (d.addRule v strict rule).errors = []) :
    (d.addRule v strict rule).Settled (done ++ rule.demands v) := by
  rw [addRule_eq] at h ⊢
  refine settled_foldl_impose ?_ h
  intro p
  rw [(table_foldl_allowPair _).1, (reportStatement_keeps _).2]
  exact hd p

theorem settled_foldl_addRule {rules : List Rule} (hd : d.Settled done)
    (h : (rules.foldl (addRule v strict) d).errors = []) :
    (rules.foldl (addRule v strict) d).Settled (done ++ rules.flatMap (Rule.demands v)) := by
  induction rules generalizing d done with
  | nil => simpa using hd
  | cons rule rules ih =>
    have hrule : (d.addRule v strict rule).errors = [] := by
      have hprefix : (d.addRule v strict rule).errors <+:
          ((rule :: rules).foldl (addRule v strict) d).errors := errors_foldl_addRule rules
      rw [h] at hprefix
      exact List.prefix_nil.mp hprefix
    rw [List.flatMap_cons, ← List.append_assoc]
    exact ih (settled_addRule hd hrule) h

end Draft

/-- What is asked for at a position is what the rules give the class in the role. -/
theorem mem_asked_contributions {rules : List Rule} {id : ClassId} {key : Role ClassId}
    {name : String} {role : Role String} (hid : v.name? id = some name)
    (hrole : key.mapM? v.name? = some role) {c : Cardinality} :
    c ∈ asked (rules.flatMap (Rule.demands v)) ⟨id, key⟩ ↔ c ∈ contributions rules name role := by
  rw [mem_asked, contributions, List.mem_flatMap]
  constructor
  · intro h
    obtain ⟨line, hq⟩ := h
    obtain ⟨rule, hrule, hq⟩ := List.mem_flatMap.mp hq
    exact ⟨rule, hrule, ((Statement.mem_demands hid hrole).mp hq).2⟩
  · intro h
    obtain ⟨rule, hrule, hc⟩ := h
    exact ⟨rule.line, List.mem_flatMap.mpr
      ⟨rule, hrule, (Statement.mem_demands hid hrole).mpr ⟨rfl, hc⟩⟩⟩

theorem narrowest_asked {rules : List Rule} {id : ClassId} {key : Role ClassId} {name : String}
    {role : Role String} (hid : v.name? id = some name) (hrole : key.mapM? v.name? = some role) :
    narrowest (asked (rules.flatMap (Rule.demands v)) ⟨id, key⟩) =
      narrowest (contributions rules name role) :=
  Cardinality.narrowest_congr fun _ => mem_asked_contributions hid hrole

variable {rules : List Rule} {strict : Bool} {out : Compilation}

theorem declared?_eq_narrowest (h : compile rules v strict = .ok out) {id : ClassId}
    {key : Role ClassId} {name : String} {role : Role String} (hid : v.name? id = some name)
    (hrole : key.mapM? v.name? = some role) :
    out.grammar.declared? id key = narrowest (contributions rules name role) := by
  obtain ⟨herrors, -, -, hbounds⟩ := compile_eq_ok h
  have hsettled := Draft.settled_foldl_addRule (Draft.settled_empty v) herrors
  rw [Grammar.declared?, hbounds, SortedMap.get?_mapValues, draftOf, hsettled, List.nil_append,
    narrowest_asked hid hrole]

theorem declaredByName?_eq (h : compile rules v strict = .ok out) (name : String)
    (role : Role String) : out.grammar.declaredByName? name role =
      if v.contains name ∧ role.other?.all v.contains then
        narrowest (contributions rules name role)
      else none := by
  have hids : out.grammar.classId? = v.id? := by
    funext name
    rw [Grammar.classId?, (compile_eq_ok h).2.1]
  simp only [Grammar.declaredByName?, hids, Vocabulary.contains_eq_isSome,
    ← Role.isSome_mapM?_id?]
  cases hid : v.id? name with
  | none => simp
  | some id =>
    cases hrole : role.mapM? v.id? with
    | none => simp
    | some key =>
      simpa using declared?_eq_narrowest h (Vocabulary.id?_eq_some_iff.mp hid)
        (Role.mapM?_id?_iff.mp hrole)

/-- The compiled table is the intersection of what the rules say, and the bound by name is what the
table holds for known classes. -/
theorem compile_bounds (h : compile rules v strict = .ok out) :
    (∀ id key name role, v.name? id = some name → key.mapM? v.name? = some role →
      (out.grammar.declared? id key = none ↔ contributions rules name role = []) ∧
        out.grammar.declared? id key = narrowest (contributions rules name role)) ∧
    ∀ name role, out.grammar.bound name role =
      if v.contains name ∧ role.other?.all v.contains then
        (narrowest (contributions rules name role)).getD .unbounded
      else .unbounded := by
  refine ⟨fun id key name role hid hrole => ?_, fun name role => ?_⟩
  · rw [declared?_eq_narrowest h hid hrole]
    exact ⟨Cardinality.narrowest_eq_none_iff, rfl⟩
  · rw [Grammar.bound, declaredByName?_eq h]
    split
    · rfl
    · rfl

def replicaRules : List Rule := [
  ⟨1, .attachment [⟨⟨"ap*"⟩, some ⟨1, some 5⟩⟩] [⟨⟨"d*"⟩, some ⟨0, some 3⟩⟩]⟩,
  ⟨2, .attachment [⟨⟨"api"⟩, some ⟨2, none⟩⟩, ⟨⟨"*p"⟩, some .unbounded⟩] [⟨⟨"*b"⟩, none⟩]⟩,
  ⟨3, .sourceAggregate [⟨⟨"*"⟩, some (.atMost 9)⟩]⟩]

/-- Two rules bound one class towards another, and no rule bounds its incoming attachments. -/
theorem compile_bounds_replicas : ∃ out,
    compile replicaRules (.ofNames ["db", "app", "api"]) true = .ok out ∧
      out.grammar.declared? 0 (.sourceOf 2) = some ⟨2, some 5⟩ ∧
      out.grammar.declared? 0 .target = none ∧
      out.grammar.bound "api" (.sourceOf "db") = ⟨2, some 5⟩ ∧
      out.grammar.bound "api" (.sourceOf "cache") = .unbounded := by
  refine ⟨_, rfl, ?_⟩
  have hbounds := @compile_bounds (.ofNames ["db", "app", "api"]) replicaRules true _ rfl
  refine ⟨?_, ?_, ?_, ?_⟩
  · exact (hbounds.1 0 (.sourceOf 2) "api" (.sourceOf "db") (by decide +kernel)
      (by decide +kernel)).2.trans (by decide +kernel)
  · exact (hbounds.1 0 .target "api" .target (by decide +kernel) rfl).1.mpr (by decide +kernel)
  · exact (hbounds.2 "api" (.sourceOf "db")).trans (by decide +kernel)
  · exact (hbounds.2 "api" (.sourceOf "cache")).trans (by decide +kernel)

end AttachmentGrammar
