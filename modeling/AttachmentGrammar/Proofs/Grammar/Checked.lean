import AttachmentGrammar.Proofs.Grammar.WellFormed
import AttachmentGrammar.Validation
/-!
Look-ups that may fail. Compiling, the queries of a grammar and validating are defined a second
time, with a result only where every cell of the relation and every class name that is read exists.
Main statement: compiling always has its result, errors included, and so have the queries and the
validation of a compiled grammar; the results are those of the definitions that fill in for a cell
or a name.
-/
namespace AttachmentGrammar

namespace Checked

/-- A cell is read only where both numbers are in range. -/
def contains (r : Relation) (source target : ClassId) : Option Bool :=
  if source < r.size ∧ target < r.size then r.cell? (r.place source target) else some false

def names (v : Vocabulary) (p : Position) : Option (String × Role String) := do
  let name ← v.name? p.classId
  let role ← p.role.mapM? v.name?
  some (name, role)

/-! Compiling. -/

def allow (source target : ClassId) (d : Draft) : Option Draft := do
  let (_, relation) ← d.relation.insert? source target
  some { d with relation := relation }

def narrow (v : Vocabulary) (line : Nat) (position : Position) (incoming : Cardinality)
    (d : Draft) : Option Draft :=
  match d.table.get? position with
  | none => some { d with table := d.table.insert position ⟨incoming, [line]⟩ }
  | some entry =>
    match entry.bound.intersect? incoming with
    | some bound =>
      let lines := if line ∈ entry.lines then entry.lines else entry.lines ++ [line]
      some { d with table := d.table.insert position ⟨bound, lines⟩ }
    | none => do
      let (name, role) ← names v position
      some { d with errors := d.errors ++
        [.conflictingCardinality name role entry.bound entry.lines incoming line] }

def narrow? (v : Vocabulary) (line : Nat) (position : Position) :
    Option Cardinality → Draft → Option Draft
  | none, d => some d
  | some incoming, d => narrow v line position incoming d

def attach (v : Vocabulary) (line : Nat) (source target : ClassId × Option Cardinality)
    (d : Draft) : Option Draft := do
  let d ← allow source.1 target.1 d
  let d ← narrow? v line ⟨source.1, .sourceOf target.1⟩ source.2 d
  narrow? v line ⟨target.1, .targetOf source.1⟩ target.2 d

def addStatement (v : Vocabulary) (strict : Bool) (line : Nat) (d : Draft) :
    Statement → Option Draft
  | .attachment sources targets =>
    let d := d.reportUnmatched strict line .left (unmatchedPatterns v sources)
    let d := d.reportUnmatched strict line .right (unmatchedPatterns v targets)
    (expandTokens v sources).foldlM (fun d source =>
      (expandTokens v targets).foldlM (fun d target => attach v line source target d) d) d
  | .sourceAggregate sources =>
    (expandTokens v sources).foldlM (fun d source => narrow? v line ⟨source.1, .source⟩ source.2 d)
      (d.reportUnmatched strict line .left (unmatchedPatterns v sources))
  | .targetAggregate targets =>
    (expandTokens v targets).foldlM (fun d target => narrow? v line ⟨target.1, .target⟩ target.2 d)
      (d.reportUnmatched strict line .right (unmatchedPatterns v targets))

def addRule (v : Vocabulary) (strict : Bool) (d : Draft) (rule : Rule) : Option Draft :=
  addStatement v strict rule.line d rule.statement

/-- Reads the row and the column of the class, and its names where there is something to report. -/
def checkEntry (v : Vocabulary) (relation : Relation) (position : Position) (entry : Entry) :
    Option (Option CompileError × Option Warning) := do
  let outgoing ← relation.hasOutgoing? position.classId
  let incoming ← relation.hasIncoming? position.classId
  let attaches := match position.role with
    | .source => outgoing
    | .target => incoming
    | .sourceOf _ | .targetOf _ => true
  if !outgoing && !incoming then
    let (name, role) ← names v position
    some (some (.orphanCardinality name role entry.bound (entry.lines.headD 0)), none)
  else if !attaches && !entry.bound.contains 0 then
    let (name, role) ← names v position
    some (none, some (.unsatisfiableBound (entry.lines.headD 0) name role entry.bound))
  else some (none, none)

def checkTable (v : Vocabulary) (d : Draft) : Option Draft := do
  let found ← d.table.toList.mapM fun e => checkEntry v d.relation e.1 e.2
  some { d with
    errors := d.errors ++ found.filterMap (·.1)
    warnings := d.warnings ++ found.filterMap (·.2) }

def compile (rules : List Rule) (v : Vocabulary) (strict : Bool) :
    Option (Except (List CompileError) Compilation) := do
  let d ← rules.foldlM (addRule v strict) (.empty v)
  let d ← checkTable v d
  if d.errors = [] then
    some (.ok {
      grammar := {
        vocabulary := v
        relation := d.relation
        bounds := d.table.mapValues Entry.bound
        ruleCount := rules.length }
      warnings := d.warnings })
  else some (.error d.errors)

/-! Queries. -/

def allowsId (g : Grammar) (source target : ClassId) : Option Bool :=
  contains g.relation source target

def allows (g : Grammar) (source target : String) : Option Bool :=
  match g.classId? source, g.classId? target with
  | some s, some t => allowsId g s t
  | _, _ => some false

def targetsOf (g : Grammar) (source : String) : Option (List String) :=
  match g.classId? source with
  | none => some []
  | some s => do
    let allowed ← g.vocabulary.entries.filterM fun e => allowsId g s e.1
    some (allowed.map (·.2))

def sourcesOf (g : Grammar) (target : String) : Option (List String) :=
  match g.classId? target with
  | none => some []
  | some t => do
    let allowed ← g.vocabulary.entries.filterM fun e => allowsId g e.1 t
    some (allowed.map (·.2))

def pairs (g : Grammar) : Option (List (String × String)) :=
  g.relation.pairs.mapM fun pair => do
    let source ← g.vocabulary.name? pair.1
    let target ← g.vocabulary.name? pair.2
    some (source, target)

def declaredBounds (g : Grammar) : Option (List (String × Role String × Cardinality)) :=
  g.bounds.toList.mapM fun e => do
    let (name, role) ← names g.vocabulary e.1
    some (name, role, e.2)

/-! Validating. -/

def edgeViolation? (g : Grammar) (graph : Graph) (e : Edge) : Option (Option EdgeViolation) :=
  match graph.class? e.source, graph.class? e.target with
  | some s, some t =>
    (allows g s t).map fun allowed => if allowed then none else some ⟨e, s, t, refusal⟩
  | _, _ => some none

def roleViolation? (g : Grammar) (node : NodeId) (id : ClassId) (role : Role ClassId)
    (actual : UInt32) : Option (Option CardinalityViolation) :=
  match g.declared? id role with
  | none => some none
  | some expected =>
    if expected.contains actual then some none
    else do
      let (name, role) ← names g.vocabulary ⟨id, role⟩
      some (some ⟨node, name, role, actual, expected⟩)

def violationsOf (g : Grammar) (node : NodeId) (id : ClassId) (counts : Tally) :
    Option (List CardinalityViolation) := do
  let found ← counts.byRole.mapM fun c => roleViolation? g node id c.1 c.2
  some found.reduceOption

def nodeViolations (g : Grammar) (counts : SortedMap NodeId Tally) (node : NodeId)
    (className : String) : Option (List CardinalityViolation) :=
  match g.classId? className with
  | none => some []
  | some id => violationsOf g node id ((counts.get? node).getD .zero)

def validate (g : Grammar) (graph : Graph) : Option Report := do
  let edges ← graph.edges.mapM (edgeViolation? g graph)
  let cardinalities ← graph.nodes.mapM fun n => nodeViolations g (g.edgePass graph) n.1 n.2
  some {
    edges := edges.reduceOption
    cardinalities := cardinalities.flatten
    unknownClasses := graph.nodes.filterMap fun (node, name) => g.unknownClass? node name }

end Checked

/-! Steps that all have a result. -/

/-- Where an invariant gives every step its result, a run has the result of the run without
checks. -/
theorem foldlM_eq_some {σ α : Type} {step? : σ → α → Option σ} {step : σ → α → σ} (I : σ → Prop)
    {items : List α}
    (h : ∀ s, I s → ∀ a ∈ items, step? s a = some (step s a) ∧ I (step s a)) {s : σ} (hs : I s) :
    items.foldlM step? s = some (items.foldl step s) ∧ I (items.foldl step s) := by
  induction items generalizing s with
  | nil => exact ⟨rfl, hs⟩
  | cons a items ih =>
    obtain ⟨hstep, hnext⟩ := h s hs a List.mem_cons_self
    rw [List.foldlM_cons, hstep, List.foldl_cons]
    exact ih (fun s hs b hb => h s hs b (List.mem_cons_of_mem a hb)) hnext

theorem mapM_eq_some {α β : Type} {f? : α → Option β} {f : α → β} {items : List α}
    (h : ∀ a ∈ items, f? a = some (f a)) : items.mapM f? = some (items.map f) := by
  induction items with
  | nil => rfl
  | cons a items ih =>
    obtain ⟨ha, hitems⟩ := List.forall_mem_cons.mp h
    rw [List.mapM_cons, ha, ih hitems]
    rfl

theorem filterM_some {α : Type} (keep : α → Bool) (items : List α) :
    items.filterM (fun a => some (keep a)) = some (items.filter keep) := by
  have haux (items kept : List α) : items.filterAuxM (fun a => some (keep a)) kept =
      some ((items.filter keep).reverse ++ kept) := by
    induction items generalizing kept with
    | nil => rfl
    | cons a items ih =>
      rw [List.filterAuxM, Option.bind_eq_bind, Option.bind_some, ih]
      cases hkeep : keep a <;> simp [hkeep]
  rw [List.filterM, haux]
  simp

theorem reduceOption_map {α β : Type} (f : α → Option β) (items : List α) :
    (items.map f).reduceOption = items.filterMap f :=
  List.filterMap_map

namespace Checked

variable {v : Vocabulary} {strict : Bool} {line : Nat} {d : Draft} {p : Position}

theorem contains_eq_some (r : Relation) (s t : ClassId) :
    contains r s t = some (r.contains s t) := by
  rw [contains]
  split
  · rename_i h
    exact Relation.cell?_eq_some h.1 h.2
  · rename_i h
    rw [Option.some.injEq, eq_comm, Bool.eq_false_iff]
    intro hcontains
    obtain ⟨hs, ht, -⟩ := Relation.contains_iff.mp hcontains
    exact h ⟨hs, ht⟩

theorem names_eq_some (h : p.Below v.size) :
    names v p = some (v.name p.classId, p.role.map v.name) := by
  obtain ⟨name, role, hnames⟩ := h.exists_names
  rw [names, hnames.name_eq, hnames.role_eq, hnames.className_eq, hnames.roleName_eq]
  rfl

/-! Compiling. -/

theorem allow_eq_some {s t : ClassId} (hs : s < d.relation.size) (ht : t < d.relation.size) :
    allow s t d = some (d.allow s t) := by
  rw [allow, Relation.insert?_eq_some hs ht]
  rfl

theorem narrow_eq_some (h : p.Below v.size) (c : Cardinality) :
    narrow v line p c d = some (d.narrow v line p c) := by
  cases hq : d.table.get? p with
  | none => simp only [narrow, Draft.narrow, hq]
  | some entry =>
    cases hi : entry.bound.intersect? c with
    | some bound => simp only [narrow, Draft.narrow, hq, hi]
    | none =>
      simp only [narrow, Draft.narrow, hq, hi, names_eq_some h, Option.bind_eq_bind,
        Option.bind_some]

theorem narrow?_eq_some (h : p.Below v.size) (range : Option Cardinality) :
    narrow? v line p range d = some (d.narrow? v line p range) := by
  cases range with
  | none => rfl
  | some c => exact narrow_eq_some h c

theorem relation_narrow? (range : Option Cardinality) :
    (d.narrow? v line p range).relation = d.relation := by
  rw [Draft.narrow?_eq, Draft.relation_foldl_impose]

/-- The relation has a row and a column for every class. -/
def Sized (v : Vocabulary) (d : Draft) : Prop := d.relation.size = v.size

theorem attach_eq_some {source target : ClassId × Option Cardinality} (hs : source.1 < v.size)
    (ht : target.1 < v.size) (hd : Sized v d) :
    attach v line source target d = some (d.attach v line source target) ∧
      Sized v (d.attach v line source target) := by
  have hout : Position.Below v.size ⟨source.1, .sourceOf target.1⟩ :=
    ⟨hs, fun _ hother => Option.some.inj hother ▸ ht⟩
  have hin : Position.Below v.size ⟨target.1, .targetOf source.1⟩ :=
    ⟨ht, fun _ hother => Option.some.inj hother ▸ hs⟩
  constructor
  · have hrows : d.relation.size = v.size := hd
    rw [attach, allow_eq_some (hrows ▸ hs) (hrows ▸ ht)]
    simp only [Option.bind_eq_bind, Option.bind_some, narrow?_eq_some hout, narrow?_eq_some hin]
    rfl
  · rw [Sized, Draft.attach, relation_narrow?, relation_narrow?, Draft.allow, Relation.size_insert]
    exact hd

theorem lt_size_of_mem_expandTokens {tokens : List Token} {e : ClassId × Option Cardinality}
    (h : e ∈ expandTokens v tokens) : e.1 < v.size := by
  obtain ⟨name, hname, -⟩ := mem_expandTokens.mp h
  exact Vocabulary.lt_size hname

theorem foldlM_narrow? {tokens : List Token} {role : Role ClassId} (hrole : role.other? = none)
    (hd : Sized v d) :
    (expandTokens v tokens).foldlM (fun d e => narrow? v line ⟨e.1, role⟩ e.2 d) d =
      some ((expandTokens v tokens).foldl (fun d e => d.narrow? v line ⟨e.1, role⟩ e.2) d) := by
  refine (foldlM_eq_some (Sized v) ?_ hd).1
  intro d hd e he
  refine ⟨narrow?_eq_some ⟨lt_size_of_mem_expandTokens he, ?_⟩ _, ?_⟩
  · intro other hother
    rw [hrole] at hother
    cases hother
  · rw [Sized, relation_narrow?]
    exact hd

theorem addStatement_eq_some (hd : Sized v d) (s : Statement) :
    addStatement v strict line d s = some (d.addStatement v strict line s) := by
  have hreported (side : Side) (patterns : List String) {d : Draft} (hd : Sized v d) :
      Sized v (d.reportUnmatched strict line side patterns) := by
    cases strict <;> exact hd
  cases s with
  | attachment sources targets =>
    refine (foldlM_eq_some (Sized v) ?_ (hreported .right _ (hreported .left _ hd))).1
    intro d hd source hsource
    refine foldlM_eq_some (Sized v) ?_ hd
    intro d hd target htarget
    exact attach_eq_some (lt_size_of_mem_expandTokens hsource)
      (lt_size_of_mem_expandTokens htarget) hd
  | sourceAggregate sources => exact foldlM_narrow? rfl (hreported .left _ hd)
  | targetAggregate targets => exact foldlM_narrow? rfl (hreported .right _ hd)

theorem sized_addRule (hd : Sized v d) (rule : Rule) : Sized v (d.addRule v strict rule) := by
  rw [Sized, Draft.relation_addRule, Relation.size_foldl_insertPair]
  exact hd

theorem foldlM_addRule (rules : List Rule) (v : Vocabulary) (strict : Bool) :
    rules.foldlM (addRule v strict) (.empty v) = some (draftOf rules v strict) := by
  have hempty : Sized v (.empty v) := rfl
  refine (foldlM_eq_some (Sized v) ?_ hempty).1
  intro d hd rule _
  exact ⟨addStatement_eq_some hd rule.statement, sized_addRule hd rule⟩

theorem checkEntry_eq_some {r : Relation} (hp : p.Below v.size) (hr : r.size = v.size)
    (entry : Entry) : checkEntry v r p entry =
      some (Draft.orphan? v r p entry, Draft.unsatisfiable? v r p entry) := by
  have hlt : p.classId < r.size := hr ▸ hp.classId_lt
  rw [checkEntry, Relation.hasOutgoing?_eq_some hlt, Relation.hasIncoming?_eq_some hlt,
    names_eq_some hp, Draft.orphan?, Draft.unsatisfiable?, Draft.isOrphan, Draft.attaches]
  simp only [Option.bind_eq_bind, Option.bind_some]
  by_cases horphan : (!r.hasOutgoing p.classId && !r.hasIncoming p.classId) = true
  · simp only [horphan, if_true, Bool.not_true, Bool.false_and, Bool.false_eq_true, if_false]
  · simp only [horphan, Bool.not_false, Bool.true_and, Bool.false_eq_true, if_false]
    exact (apply_ite (fun warning => some (none, warning)) _ _ _).symm

theorem checkTable_eq_some (hd : Sized v d)
    (hkeys : ∀ e ∈ d.table.toList, e.1.Below v.size) :
    checkTable v d = some (d.checkTable v) := by
  have hentries := mapM_eq_some fun e he => checkEntry_eq_some (hkeys e he) hd e.2
  rw [checkTable, hentries]
  simp only [Option.bind_eq_bind, Option.bind_some, List.filterMap_map]
  rfl

theorem compile_eq_some (rules : List Rule) (v : Vocabulary) (strict : Bool) :
    compile rules v strict = some (AttachmentGrammar.compile rules v strict) := by
  have hkeys : ∀ e ∈ (draftOf rules v strict).table.toList, e.1.Below v.size := by
    intro e he
    obtain ⟨name, role, hnames⟩ := exists_names_of_get? (SortedMap.mem_toList_iff.mp he)
    exact hnames.below
  rw [compile, foldlM_addRule]
  simp only [Option.bind_eq_bind, Option.bind_some, checkTable_eq_some size_relation hkeys]
  exact (apply_ite some _ _ _).symm

/-! Queries. -/

variable {g : Grammar}

theorem allowsId_eq_some (g : Grammar) (s t : ClassId) : allowsId g s t = some (g.allowsId s t) :=
  contains_eq_some g.relation s t

theorem allows_eq_some (g : Grammar) (s t : String) : allows g s t = some (g.allows s t) := by
  rw [allows, Grammar.allows]
  cases g.classId? s with
  | none => rfl
  | some i =>
    cases g.classId? t with
    | none => rfl
    | some j => exact allowsId_eq_some g i j

theorem targetsOf_eq_some (g : Grammar) (s : String) : targetsOf g s = some (g.targetsOf s) := by
  rw [targetsOf, Grammar.targetsOf]
  cases g.classId? s with
  | none => rfl
  | some i =>
    simp only [allowsId_eq_some, filterM_some, Option.bind_eq_bind, Option.bind_some]

theorem sourcesOf_eq_some (g : Grammar) (t : String) : sourcesOf g t = some (g.sourcesOf t) := by
  rw [sourcesOf, Grammar.sourcesOf]
  cases g.classId? t with
  | none => rfl
  | some j =>
    simp only [allowsId_eq_some, filterM_some, Option.bind_eq_bind, Option.bind_some]

theorem name?_eq_some {id : ClassId} (h : id < v.size) : v.name? id = some (v.name id) := by
  obtain ⟨name, hname⟩ := exists_name_of_lt h
  rw [hname, Vocabulary.name_eq hname]

theorem pairs_eq_some (h : g.WellFormed) : pairs g = some g.pairs := by
  refine mapM_eq_some ?_
  intro pair hpair
  obtain ⟨hs, ht⟩ := h.pairs_lt pair hpair
  rw [name?_eq_some hs, name?_eq_some ht]
  rfl

theorem below_of_get? (h : g.WellFormed) {c : Cardinality} (hp : g.bounds.get? p = some c) :
    p.Below g.vocabulary.size :=
  h.keys_below p (SortedMap.mem_keys.mpr (Option.isSome_iff_exists.mpr ⟨c, hp⟩))

theorem declaredBounds_eq_some (h : g.WellFormed) :
    declaredBounds g = some g.declaredBounds := by
  refine mapM_eq_some ?_
  intro e he
  rw [names_eq_some (below_of_get? h (SortedMap.mem_toList_iff.mp he))]
  rfl

/-! Validating. -/

theorem edgeViolation?_eq_some (g : Grammar) (graph : Graph) (e : Edge) :
    edgeViolation? g graph e = some (g.edgeViolation? graph e) := by
  rw [edgeViolation?, Grammar.edgeViolation?]
  cases graph.class? e.source with
  | none => rfl
  | some s =>
    cases graph.class? e.target with
    | none => rfl
    | some t =>
      simp only [allows_eq_some, Option.map_some, Option.bind_eq_bind, Option.bind_some]

theorem roleViolation?_eq_some (h : g.WellFormed) (node : NodeId) (id : ClassId)
    (role : Role ClassId) (actual : UInt32) :
    roleViolation? g node id role actual = some (g.roleViolation? node id role actual) := by
  rw [roleViolation?, Grammar.roleViolation?]
  cases hdeclared : g.declared? id role with
  | none => rfl
  | some expected =>
    rw [names_eq_some (below_of_get? h hdeclared)]
    exact (apply_ite some _ _ _).symm

theorem violationsOf_eq_some (h : g.WellFormed) (node : NodeId) (id : ClassId) (counts : Tally) :
    violationsOf g node id counts = some (g.violationsOf node id counts) := by
  rw [violationsOf, mapM_eq_some fun c _ => roleViolation?_eq_some h node id c.1 c.2]
  exact congrArg some (reduceOption_map _ _)

theorem nodeViolations_eq_some (h : g.WellFormed) (counts : SortedMap NodeId Tally) (node : NodeId)
    (className : String) :
    nodeViolations g counts node className = some (g.nodeViolations counts node className) := by
  rw [nodeViolations, Grammar.nodeViolations]
  cases g.classId? className with
  | none => rfl
  | some id => exact violationsOf_eq_some h node id _

theorem validate_eq_some (h : g.WellFormed) (graph : Graph) :
    validate g graph = some (g.validate graph) := by
  have hedges : graph.edges.mapM (edgeViolation? g graph) =
      some (graph.edges.map (g.edgeViolation? graph)) :=
    mapM_eq_some fun e _ => edgeViolation?_eq_some g graph e
  have hnodes : (graph.nodes.mapM fun n => nodeViolations g (g.edgePass graph) n.1 n.2) =
      some (graph.nodes.map fun n => g.nodeViolations (g.edgePass graph) n.1 n.2) :=
    mapM_eq_some fun n _ => nodeViolations_eq_some h (g.edgePass graph) n.1 n.2
  rw [validate, hedges, hnodes]
  simp only [Option.bind_eq_bind, Option.bind_some, reduceOption_map, ← List.flatMap_def]
  rfl

end Checked

/-! The whole. -/

/-- Queries on the classes of the grammar, and validation, find every cell and name they read. -/
structure Grammar.Answers (g : Grammar) : Prop where
  name : ∀ id < g.vocabulary.size, g.vocabulary.name? id = some (g.vocabulary.name id)
  roleName : ∀ role : Role ClassId, (∀ other ∈ role.other?, other < g.vocabulary.size) →
    role.mapM? g.vocabulary.name? = some (g.roleName role)
  hasOutgoing : ∀ id < g.vocabulary.size,
    g.relation.hasOutgoing? id = some (g.relation.hasOutgoing id)
  hasIncoming : ∀ id < g.vocabulary.size,
    g.relation.hasIncoming? id = some (g.relation.hasIncoming id)
  allowsId : ∀ s t, Checked.allowsId g s t = some (g.allowsId s t)
  allows : ∀ s t, Checked.allows g s t = some (g.allows s t)
  targetsOf : ∀ s, Checked.targetsOf g s = some (g.targetsOf s)
  sourcesOf : ∀ t, Checked.sourcesOf g t = some (g.sourcesOf t)
  pairs : Checked.pairs g = some g.pairs
  declaredBounds : Checked.declaredBounds g = some g.declaredBounds
  validate : ∀ graph, Checked.validate g graph = some (g.validate graph)

open Checked in
theorem Grammar.WellFormed.answers {g : Grammar} (h : g.WellFormed) : g.Answers where
  name _ hid := name?_eq_some hid
  roleName role hother := by
    cases role with
    | source => rfl
    | target => rfl
    | sourceOf other => rw [Role.mapM?, name?_eq_some (hother other rfl)]; rfl
    | targetOf other => rw [Role.mapM?, name?_eq_some (hother other rfl)]; rfl
  hasOutgoing id hid := Relation.hasOutgoing?_eq_some (h.size_eq ▸ hid)
  hasIncoming id hid := Relation.hasIncoming?_eq_some (h.size_eq ▸ hid)
  allowsId := allowsId_eq_some g
  allows := allows_eq_some g
  targetsOf := targetsOf_eq_some g
  sourcesOf := sourcesOf_eq_some g
  pairs := pairs_eq_some h
  declaredBounds := declaredBounds_eq_some h
  validate := validate_eq_some h

/-- Compiling finds every cell and name that it reads, also where it fails, and a grammar that it
returns fits its vocabulary. -/
theorem compile_checked (rules : List Rule) (v : Vocabulary) (strict : Bool) :
    Checked.compile rules v strict = some (compile rules v strict) ∧
      ∀ out, compile rules v strict = .ok out →
        out.grammar.vocabulary = v ∧ out.grammar.WellFormed ∧ out.grammar.Answers ∧
          ((∀ rule ∈ rules, rule.WellRanged) →
            ∀ p c, out.grammar.bounds.get? p = some c → c.Valid) := by
  refine ⟨Checked.compile_eq_some rules v strict, ?_⟩
  intro out hout
  have hform := wellFormed_of_compile hout
  exact ⟨(compile_eq_ok hout).2.1, hform, hform.answers,
    fun hranged p c hc => valid_of_compile hout hranged hc⟩

def relayRules : List Rule := [
  ⟨1, .attachment [⟨⟨"a*"⟩, some ⟨1, some 4⟩⟩] [⟨⟨"relay"⟩, some (.atLeast 2)⟩]⟩,
  ⟨2, .attachment [⟨⟨"amp"⟩, some ⟨3, some 6⟩⟩] [⟨⟨"*"⟩, none⟩]⟩,
  ⟨3, .sourceAggregate [⟨⟨"amp"⟩, some (.atMost 8)⟩]⟩]

/-- A grammar is made from the rules, and one more rule makes compiling fail. -/
theorem compile_checked_relays : ∃ out,
    compile relayRules (.ofNames ["relay", "antenna", "amp"]) true = .ok out ∧
      Checked.pairs out.grammar = some out.grammar.pairs ∧
      out.grammar.allowsId 0 2 = true ∧
      out.grammar.bounds.get? ⟨0, .sourceOf 2⟩ = some ⟨3, some 4⟩ ∧
      (⟨3, some 4⟩ : Cardinality).Valid ∧
      Checked.compile (relayRules ++ [⟨4, .sourceAggregate [⟨⟨"amp"⟩, some (.atLeast 9)⟩]⟩])
        (.ofNames ["relay", "antenna", "amp"]) true =
          some (.error [.conflictingCardinality "amp" .source (.atMost 8) [3] (.atLeast 9) 4]) := by
  obtain ⟨-, hok⟩ := compile_checked relayRules (.ofNames ["relay", "antenna", "amp"]) true
  obtain ⟨-, hform, hanswers, hvalid⟩ := hok _ rfl
  refine ⟨_, rfl, hanswers.pairs, hform.sourceOf_allowed 0 2 (by decide +kernel),
    by decide +kernel, ?_, ?_⟩
  · exact hvalid (by decide +kernel) ⟨0, .sourceOf 2⟩ _ (by decide +kernel)
  · exact (compile_checked _ _ _).1.trans (by decide +kernel)

end AttachmentGrammar
