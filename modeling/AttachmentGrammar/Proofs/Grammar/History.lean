import AttachmentGrammar.Proofs.Grammar.Table
/-!
What rules ask for, by name. Main statements: all demands speak of known classes; and those at one
position are, in their order, the ranges of the tokens that cover its class, an attachment rule
asking once for every two tokens that it brings together.
-/
namespace AttachmentGrammar

open Table (demandsAt)

variable {v : Vocabulary} {name : String} {role : Role String} {p p' : Position}

/-! Positions by name. -/

/-- The class and, where there is one, the other class are known. -/
structure Vocabulary.Knows (v : Vocabulary) (name : String) (role : Role String) : Prop where
  name_known : name ∈ v.names
  other_known : ∀ other ∈ role.other?, other ∈ v.names

namespace Position

structure Names (v : Vocabulary) (p : Position) (name : String) (role : Role String) : Prop where
  name_eq : v.name? p.classId = some name
  role_eq : p.role.mapM? v.name? = some role

theorem exists_names_iff : (∃ p : Position, p.Names v name role) ↔ v.Knows name role := by
  constructor
  · intro h
    obtain ⟨⟨id, key⟩, hname, hrole⟩ := h
    refine ⟨Vocabulary.mem_names_iff.mpr ⟨id, hname⟩, ?_⟩
    have hids := Role.mapM?_id?_iff.mpr hrole
    have hknown : role.other?.all v.contains = true := by
      rw [← Role.isSome_mapM?_id?, hids, Option.isSome_some]
    intro other hother
    rw [hother, Option.all_some, Vocabulary.contains_iff] at hknown
    obtain ⟨i, hi⟩ := hknown
    exact Vocabulary.mem_names_iff.mpr ⟨i, Vocabulary.id?_eq_some_iff.mp hi⟩
  · intro h
    obtain ⟨id, hname⟩ := Vocabulary.mem_names_iff.mp h.name_known
    have hknown : (role.mapM? v.id?).isSome = true := by
      rw [Role.isSome_mapM?_id?, Option.all_eq_true]
      intro other hother
      obtain ⟨i, hi⟩ := Vocabulary.mem_names_iff.mp (h.other_known other hother)
      exact Vocabulary.contains_iff.mpr ⟨i, Vocabulary.id?_eq_some_iff.mpr hi⟩
    obtain ⟨key, hkey⟩ := Option.isSome_iff_exists.mp hknown
    exact ⟨⟨id, key⟩, hname, Role.mapM?_id?_iff.mp hkey⟩

namespace Names

theorem inj (h : p.Names v name role) (h' : p'.Names v name role) : p = p' := by
  obtain ⟨id, key⟩ := p
  obtain ⟨id', key'⟩ := p'
  have hid := Option.some.inj ((Vocabulary.id?_eq_some_iff.mpr h.name_eq).symm.trans
    (Vocabulary.id?_eq_some_iff.mpr h'.name_eq))
  have hkey := Option.some.inj ((Role.mapM?_id?_iff.mpr h.role_eq).symm.trans
    (Role.mapM?_id?_iff.mpr h'.role_eq))
  exact congr (congrArg Position.mk hid) hkey

theorem className_eq (h : p.Names v name role) : v.name p.classId = name :=
  Vocabulary.name_eq h.name_eq

theorem roleName_eq (h : p.Names v name role) : p.role.map v.name = role :=
  Role.map_name h.role_eq

end Names

end Position

/-! Demands by name. -/

theorem exists_names_of_mem_demands {rule : Rule} {q : Demand} (h : q ∈ rule.demands v) :
    ∃ name role, q.position.Names v name role := by
  obtain ⟨line, statement⟩ := rule
  obtain ⟨p, c, line'⟩ := q
  have hnamed {tokens : List Token} {i : ClassId} {range : Option Cardinality}
      (hi : (i, range) ∈ expandTokens v tokens) : ∃ name, v.name? i = some name := by
    obtain ⟨name, hname, -⟩ := mem_expandTokens.mp hi
    exact ⟨name, hname⟩
  cases statement with
  | attachment sources targets =>
    obtain ⟨-, s, t, hpair⟩ := mem_demands_attachment.mp h
    rcases hpair with ⟨rfl, hs, _, ht⟩ | ⟨rfl, ht, _, hs⟩
    · obtain ⟨a, ha⟩ := hnamed hs
      obtain ⟨b, hb⟩ := hnamed ht
      exact ⟨a, .sourceOf b, ha, Option.map_eq_some_iff.mpr ⟨b, hb, rfl⟩⟩
    · obtain ⟨a, ha⟩ := hnamed hs
      obtain ⟨b, hb⟩ := hnamed ht
      exact ⟨b, .targetOf a, hb, Option.map_eq_some_iff.mpr ⟨a, ha, rfl⟩⟩
  | sourceAggregate sources =>
    obtain ⟨-, s, rfl, hs⟩ := mem_demands_aggregate.mp h
    obtain ⟨a, ha⟩ := hnamed hs
    exact ⟨a, .source, ha, rfl⟩
  | targetAggregate targets =>
    obtain ⟨-, t, rfl, ht⟩ := mem_demands_aggregate.mp h
    obtain ⟨a, ha⟩ := hnamed ht
    exact ⟨a, .target, ha, rfl⟩

/-- A token expands to a class once, if it covers it. -/
theorem filter_expandTokens {tokens : List Token} {i : ClassId} (h : v.name? i = some name) :
    (expandTokens v tokens).filter (fun e => e.1 = i) =
      (tokens.filter (·.pattern.covers name)).map fun t => (i, t.bound?) := by
  have hone (t : Token) : ((v.expand t.pattern).map fun id => (id, t.bound?)).filter
      (fun e => e.1 = i) = if t.pattern.covers name = true then [(i, t.bound?)] else [] := by
    rw [List.filter_map]
    simp only [Function.comp_def, Vocabulary.filter_expand h]
    split <;> rfl
  rw [expandTokens, List.filter_flatMap]
  simp only [hone]
  rw [flatMap_if, List.map_eq_flatMap]
  simp

/-- A range that a rule of some line gives. -/
structure Contribution where
  line : Nat
  range : Cardinality
  deriving DecidableEq, Repr

/-- The ranges that a statement gives a class in a role, as they are met one after the other. -/
def Statement.asks (name : String) : Role String → Statement → List Cardinality
  | .source, sourceAggregate sources =>
    (sources.filter (·.pattern.covers name)).flatMap fun t => t.bound?.toList
  | .target, targetAggregate targets =>
    (targets.filter (·.pattern.covers name)).flatMap fun t => t.bound?.toList
  | .sourceOf other, attachment sources targets =>
    (sources.filter (·.pattern.covers name)).flatMap fun s =>
      (targets.filter (·.pattern.covers other)).flatMap fun _ => s.bound?.toList
  | .targetOf other, attachment sources targets =>
    (sources.filter (·.pattern.covers other)).flatMap fun _ =>
      (targets.filter (·.pattern.covers name)).flatMap fun t => t.bound?.toList
  | _, _ => []

def history (rules : List Rule) (name : String) (role : Role String) : List Contribution :=
  rules.flatMap fun rule => (rule.statement.asks name role).map (⟨rule.line, ·⟩)

/-- A token of one side counts as soon as the other side covers the other class. -/
theorem mem_asks_scoped {own others : List Token} {other : String} {c : Cardinality} :
    c ∈ (if others.any (·.pattern.covers other) then own.filter (·.pattern.covers name)
        else []).filterMap Token.bound? ↔
      (∃ t ∈ others, t.pattern.covers other = true) ∧
        ∃ t ∈ own, t.pattern.covers name = true ∧ t.bound? = some c := by
  rw [← List.any_eq_true]
  split
  · rename_i hany
    simp [hany, and_assoc]
  · rename_i hany
    simp [hany]

/-- The order apart, these are the ranges of the tokens that speak of the class. -/
theorem Statement.mem_asks {statement : Statement} {c : Cardinality} :
    c ∈ statement.asks name role ↔ c ∈ (statement.tokensFor name role).filterMap Token.bound? := by
  cases statement with
  | attachment sources targets =>
    cases role with
    | source => rfl
    | target => rfl
    | sourceOf other =>
      rw [tokensFor, mem_asks_scoped]
      simp only [asks, List.mem_flatMap, List.mem_filter, Option.mem_toList]
      grind
    | targetOf other =>
      rw [tokensFor, mem_asks_scoped]
      simp only [asks, List.mem_flatMap, List.mem_filter, Option.mem_toList]
      grind
  | sourceAggregate sources =>
    cases role with
    | source => simp [asks, tokensFor]
    | target => rfl
    | sourceOf other => rfl
    | targetOf other => rfl
  | targetAggregate targets =>
    cases role with
    | target => simp [asks, tokensFor]
    | source => rfl
    | sourceOf other => rfl
    | targetOf other => rfl

theorem mem_contributions_iff {rules : List Rule} {c : Cardinality} :
    c ∈ contributions rules name role ↔ ∃ line, ⟨line, c⟩ ∈ history rules name role := by
  simp only [contributions, history, List.mem_flatMap, List.mem_map, ← Statement.mem_asks]
  constructor
  · intro h
    obtain ⟨rule, hrule, hc⟩ := h
    exact ⟨rule.line, rule, hrule, c, hc, rfl⟩
  · intro h
    obtain ⟨line, rule, hrule, d, hd, heq⟩ := h
    obtain ⟨-, rfl⟩ := Contribution.mk.inj heq
    exact ⟨rule, hrule, hd⟩

def Contribution.demand (p : Position) (c : Contribution) : Demand := ⟨p, c.range, c.line⟩

theorem demandsAt_flatMap {α : Type} (f : α → List Demand) (items : List α) :
    demandsAt p (items.flatMap f) = items.flatMap fun a => demandsAt p (f a) :=
  List.filter_flatMap

theorem demandsAt_append (qs qs' : List Demand) :
    demandsAt p (qs ++ qs') = demandsAt p qs ++ demandsAt p qs' :=
  List.filter_append _ _

theorem demandsAt_optional {line : Nat} {range : Option Cardinality} :
    demandsAt p (Demand.optional line p' range) =
      if p' = p then range.toList.map fun c => ⟨p, c, line⟩ else [] := by
  cases range with
  | none => simp [demandsAt, Demand.optional]
  | some c =>
    by_cases h : p' = p
    · simp [demandsAt, Demand.optional, h]
    · simp [demandsAt, Demand.optional, h]

/-- Of all pairs of expanded tokens only those of the two given classes count. -/
theorem flatMap_flatMap_if {α β γ : Type} (p : α → Prop) [DecidablePred p] (q : β → Prop)
    [DecidablePred q] (f : α → β → List γ) (as : List α) (bs : List β) :
    (as.flatMap fun a => bs.flatMap fun b => if p a ∧ q b then f a b else []) =
      (as.filter fun a => p a).flatMap fun a => (bs.filter fun b => q b).flatMap (f a) := by
  have hinner (a : α) : (bs.flatMap fun b => if p a ∧ q b then f a b else []) =
      if p a then (bs.filter fun b => q b).flatMap (f a) else [] := by
    by_cases ha : p a
    · simp [ha, flatMap_if]
    · simp [ha]
  simp only [hinner]
  exact flatMap_if p _ as

namespace Statement

variable {sources targets : List Token} {line : Nat}

theorem demandsAt_attachment : demandsAt p ((attachment sources targets).demands v line) =
    (expandTokens v sources).flatMap fun s => (expandTokens v targets).flatMap fun t =>
      (if (⟨s.1, .sourceOf t.1⟩ : Position) = p then s.2.toList.map fun c => ⟨p, c, line⟩
        else []) ++
        if (⟨t.1, .targetOf s.1⟩ : Position) = p then t.2.toList.map fun c => ⟨p, c, line⟩
        else [] := by
  simp only [demands, demandsAt_flatMap, demandsAt_append, demandsAt_optional]

theorem demandsAt_aggregate {tokens : List Token} {key : Role ClassId} :
    demandsAt p ((expandTokens v tokens).flatMap fun e =>
        Demand.optional line ⟨e.1, key⟩ e.2) =
      (expandTokens v tokens).flatMap fun e =>
        if (⟨e.1, key⟩ : Position) = p then e.2.toList.map fun c => ⟨p, c, line⟩ else [] := by
  simp only [demandsAt_flatMap, demandsAt_optional]

/-- At a position a statement asks for the ranges that it gives the class in the role. -/
theorem demandsAt_demands {statement : Statement} (h : p.Names v name role) :
    demandsAt p (statement.demands v line) =
      (statement.asks name role).map fun c => ⟨p, c, line⟩ := by
  obtain ⟨id, key⟩ := p
  obtain ⟨hid, hrole⟩ := h
  cases statement with
  | attachment sources targets =>
    rw [demandsAt_attachment]
    cases key with
    | source =>
      obtain rfl := Option.some.inj hrole
      simp [asks]
    | target =>
      obtain rfl := Option.some.inj hrole
      simp [asks]
    | sourceOf other =>
      obtain ⟨otherName, hother, rfl⟩ := Option.map_eq_some_iff.mp hrole
      simp only [Position.mk.injEq, Role.sourceOf.injEq, reduceCtorEq, and_false, if_false,
        List.append_nil, flatMap_flatMap_if, filter_expandTokens hid, filter_expandTokens hother,
        asks, List.flatMap_map, List.map_flatMap]
    | targetOf other =>
      obtain ⟨otherName, hother, rfl⟩ := Option.map_eq_some_iff.mp hrole
      simp only [Position.mk.injEq, Role.targetOf.injEq, reduceCtorEq, and_false, if_false,
        List.nil_append]
      simp only [and_comm, flatMap_flatMap_if, filter_expandTokens hid, filter_expandTokens hother,
        asks, List.flatMap_map, List.map_flatMap]
  | sourceAggregate sources =>
    rw [demands, demandsAt_aggregate]
    cases key with
    | source =>
      obtain rfl := Option.some.inj hrole
      simp only [Position.mk.injEq, and_true, flatMap_if, filter_expandTokens hid, asks,
        List.flatMap_map, List.map_flatMap]
    | target =>
      obtain rfl := Option.some.inj hrole
      simp [asks]
    | sourceOf other =>
      obtain ⟨otherName, -, rfl⟩ := Option.map_eq_some_iff.mp hrole
      simp [asks]
    | targetOf other =>
      obtain ⟨otherName, -, rfl⟩ := Option.map_eq_some_iff.mp hrole
      simp [asks]
  | targetAggregate targets =>
    rw [demands, demandsAt_aggregate]
    cases key with
    | target =>
      obtain rfl := Option.some.inj hrole
      simp only [Position.mk.injEq, and_true, flatMap_if, filter_expandTokens hid, asks,
        List.flatMap_map, List.map_flatMap]
    | source =>
      obtain rfl := Option.some.inj hrole
      simp [asks]
    | sourceOf other =>
      obtain ⟨otherName, -, rfl⟩ := Option.map_eq_some_iff.mp hrole
      simp [asks]
    | targetOf other =>
      obtain ⟨otherName, -, rfl⟩ := Option.map_eq_some_iff.mp hrole
      simp [asks]

end Statement

/-- The demands at a position are what the rules ask of the class in the role, in their order. -/
theorem demandsAt_flatMap_demands (rules : List Rule) (h : p.Names v name role) :
    demandsAt p (rules.flatMap (Rule.demands v)) =
      (history rules name role).map (Contribution.demand p) := by
  have hrule (rule : Rule) : demandsAt p (rule.demands v) =
      ((rule.statement.asks name role).map (⟨rule.line, ·⟩)).map (Contribution.demand p) := by
    rw [Rule.demands, Statement.demandsAt_demands h, List.map_map]
    rfl
  rw [demandsAt_flatMap, history, List.map_flatMap]
  simp only [hrule]

end AttachmentGrammar
