import AttachmentGrammar.Proofs.Grammar.Faults
import AttachmentGrammar.Proofs.Validation.Comparison
/-!
More classes and more rules. Main statements: classes that are added to the known ones change
nothing for those known before, neither in the grammar nor in the report on a graph of theirs; rules
that are added allow more and bound more tightly, which a report shows; and attachment rules that
bound nothing can be added to rules that compile, wherever unmatched patterns are no errors, and
leave the bounds as they are.
-/
namespace AttachmentGrammar

open Cardinality (narrowest)

variable {rules rules' : List Rule} {v v' : Vocabulary} {strict strict' : Bool}
  {out out' : Compilation} {name : String} {role : Role String}

/-! A compiled grammar by names. -/

theorem Vocabulary.knows_iff : v.Knows name role ↔
    v.contains name = true ∧ role.other?.all v.contains = true := by
  have hcontains (a : String) : v.contains a = true ↔ a ∈ v.names := by
    rw [Vocabulary.contains, List.contains_iff_mem, SortedSet.mem_toList]
  rw [hcontains, Option.all_eq_true]
  simp only [hcontains]
  exact ⟨fun h => ⟨h.name_known, h.other_known⟩, fun h => ⟨h.1, h.2⟩⟩

theorem allows_iff_allowed (h : compile rules v strict = .ok out) {a b : String} :
    out.grammar.allows a b = true ↔ Allowed rules v a b := by
  obtain ⟨-, hvocabulary, hrelation, -⟩ := compile_eq_ok h
  rw [Grammar.allows_iff_ids, hvocabulary, hrelation]
  constructor
  · intro hmark
    obtain ⟨s, t, hs, ht, hcontains⟩ := hmark
    exact (allowed_iff_contains hs ht).mp hcontains
  · intro hallowed
    obtain ⟨s, hs⟩ := Vocabulary.mem_names_iff.mp hallowed.1
    obtain ⟨t, ht⟩ := Vocabulary.mem_names_iff.mp hallowed.2.1
    exact ⟨s, t, hs, ht, (allowed_iff_contains hs ht).mpr hallowed⟩

theorem bound_of_knows (h : compile rules v strict = .ok out) (hknows : v.Knows name role) :
    out.grammar.bound name role = (narrowest (contributions rules name role)).getD .unbounded := by
  rw [Grammar.bound, declaredByName?_eq h, if_pos (Vocabulary.knows_iff.mp hknows)]

theorem bound_of_not_knows (h : compile rules v strict = .ok out) (hknows : ¬v.Knows name role) :
    out.grammar.bound name role = .unbounded := by
  rw [Grammar.bound, declaredByName?_eq h, if_neg fun hc => hknows (Vocabulary.knows_iff.mpr hc)]
  rfl

/-- A count is within the bound if it is within all ranges that the rules give. -/
theorem contains_bound_iff (h : compile rules v strict = .ok out) {n : UInt32} :
    (out.grammar.bound name role).contains n = true ↔
      (v.Knows name role → ∀ c ∈ contributions rules name role, c.contains n = true) := by
  by_cases hknows : v.Knows name role
  · rw [bound_of_knows h hknows, Cardinality.contains_narrowest, forall_prop_of_true hknows]
  · rw [bound_of_not_knows h hknows]
    exact iff_of_true (Cardinality.contains_unbounded n) fun hk => (hknows hk).elim

/-! More classes. -/

theorem alikeOn_of_names_subset (hnames : ∀ a ∈ v.names, a ∈ v'.names)
    (h : compile rules v strict = .ok out) (h' : compile rules v' strict' = .ok out') :
    out.grammar.AlikeOn out'.grammar (· ∈ v.names) where
  known_iff a ha := by
    rw [(compile_eq_ok h).2.1, (compile_eq_ok h').2.1]
    exact iff_of_true ha (hnames a ha)
  allows_eq a b ha hb := by
    rw [Bool.eq_iff_iff, allows_iff_allowed h, allows_iff_allowed h', Allowed, Allowed,
      and_iff_right ha, and_iff_right hb, and_iff_right (hnames a ha), and_iff_right (hnames b hb)]
  bound_eq a role ha hother := by
    rw [bound_of_knows h ⟨ha, hother⟩,
      bound_of_knows h' ⟨hnames a ha, fun other ho => hnames other (hother other ho)⟩]

/-- Classes that are added change no verdict on those known before. -/
theorem compile_more_classes (hnames : ∀ a ∈ v.names, a ∈ v'.names)
    (h : compile rules v strict = .ok out) (h' : compile rules v' strict' = .ok out') :
    (∀ a ∈ v.names, ∀ b ∈ v.names, out.grammar.allows a b = out'.grammar.allows a b) ∧
      (∀ a ∈ v.names, ∀ role : Role String, (∀ b ∈ role.other?, b ∈ v.names) →
        out.grammar.bound a role = out'.grammar.bound a role) ∧
      ∀ graph : Graph, (∀ id a, graph.class? id = some a → a ∈ v.names) →
        out.grammar.validate graph = out'.grammar.validate graph := by
  have halike := alikeOn_of_names_subset hnames h h'
  refine ⟨fun a ha b hb => halike.allows_eq a b ha hb,
    fun a ha role hother => halike.bound_eq a role ha hother, fun graph hgraph => ?_⟩
  refine halike.validate_eq fun a ha => ?_
  obtain ⟨id, hid⟩ := ha
  exact hgraph id a hid

def sensorRules : List Rule := [
  ⟨1, .attachment [⟨⟨"s*"⟩, some (.atMost 1)⟩] [⟨⟨"*"⟩, none⟩]⟩,
  ⟨2, .targetAggregate [⟨⟨"h*"⟩, some (.atLeast 1)⟩]⟩]

/-- A sensor with two edges to sensors, and an edge that leaves the hub. -/
def sensorEdits : List Edit := [
  .addNode 1 "sensor", .addNode 2 "sensor", .addNode 3 "hub",
  .addEdge ⟨1, 1⟩, .addEdge ⟨1, 2⟩, .addEdge ⟨3, 1⟩]

/-- Both patterns cover more classes than before, and the sensor has another number. -/
theorem compile_more_classes_sensors : ∃ out out',
    compile sensorRules (.ofNames ["hub", "sensor"]) true = .ok out ∧
      compile sensorRules (.ofNames ["alarm", "heater", "hub", "sensor", "siren"]) true = .ok out' ∧
      out.grammar.classId? "sensor" ≠ out'.grammar.classId? "sensor" ∧
      out.grammar.bound "sensor" (.sourceOf "sensor") =
        out'.grammar.bound "sensor" (.sourceOf "sensor") ∧
      out.grammar.validate (Graph.run sensorEdits .empty) =
        out'.grammar.validate (Graph.run sensorEdits .empty) ∧
      (out.grammar.validate (Graph.run sensorEdits .empty)).count = 3 := by
  have hnames : ∀ a ∈ (Vocabulary.ofNames ["hub", "sensor"]).names,
      a ∈ (Vocabulary.ofNames ["alarm", "heater", "hub", "sensor", "siren"]).names := by
    have hall : ∀ a ∈ (Vocabulary.ofNames ["hub", "sensor"]).names.toList,
        a ∈ (Vocabulary.ofNames ["alarm", "heater", "hub", "sensor", "siren"]).names := by
      decide +kernel
    exact hall
  have hclasses : ∀ entry ∈ (Graph.run sensorEdits .empty).classes.toList,
      entry.2 ∈ (Vocabulary.ofNames ["hub", "sensor"]).names := by decide +kernel
  have hout : compile sensorRules (.ofNames ["hub", "sensor"]) true = .ok _ := rfl
  have hout' : compile sensorRules
      (.ofNames ["alarm", "heater", "hub", "sensor", "siren"]) true = .ok _ := rfl
  obtain ⟨-, hbound, hvalidate⟩ := compile_more_classes hnames hout hout'
  refine ⟨_, _, rfl, rfl, by decide +kernel, ?_, ?_, by decide +kernel⟩
  · exact hbound "sensor" (by decide +kernel) (.sourceOf "sensor") (by decide +kernel)
  · exact hvalidate _ fun id a ha => hclasses (id, a) (SortedMap.mem_toList_iff.mpr ha)

/-! More rules. -/

theorem mem_contributions_of_subset (hrules : rules ⊆ rules') {c : Cardinality}
    (hc : c ∈ contributions rules name role) : c ∈ contributions rules' name role := by
  obtain ⟨rule, hrule, hc⟩ := List.mem_flatMap.mp hc
  exact List.mem_flatMap.mpr ⟨rule, hrules hrule, hc⟩

theorem Allowed.of_subset {a b : String} (hallowed : Allowed rules v a b) (hrules : rules ⊆ rules') :
    Allowed rules' v a b := by
  obtain ⟨ha, hb, rule, hrule, hattaches⟩ := hallowed
  exact ⟨ha, hb, rule, hrules hrule, hattaches⟩

theorem tightenedBy_of_subset (hrules : rules ⊆ rules') (h : compile rules v strict = .ok out)
    (h' : compile rules' v strict' = .ok out') : out.grammar.TightenedBy out'.grammar where
  vocabulary_eq := by rw [(compile_eq_ok h).2.1, (compile_eq_ok h').2.1]
  allows_of_allows a b hallows :=
    (allows_iff_allowed h').mpr (((allows_iff_allowed h).mp hallows).of_subset hrules)
  contains_of_contains name role n hn := by
    rw [contains_bound_iff h'] at hn
    rw [contains_bound_iff h]
    exact fun hknows c hc => hn hknows c (mem_contributions_of_subset hrules hc)

/-- An attachment rule that bounds nothing. -/
def Rule.Unbounding (rule : Rule) : Prop :=
  ∃ sources targets, rule.statement = .attachment sources targets ∧
    ∀ t ∈ sources ++ targets, ∀ c ∈ t.cardinality, c = .unbounded

/-- The second list is the first with rules put in between that are all of one sort. -/
inductive Interspersed (added : Rule → Prop) : List Rule → List Rule → Prop
  | nil : Interspersed added [] []
  | keep (rule : Rule) {rules rules' : List Rule} (h : Interspersed added rules rules') :
      Interspersed added (rule :: rules) (rule :: rules')
  | add (rule : Rule) {rules rules' : List Rule} (hrule : added rule)
      (h : Interspersed added rules rules') : Interspersed added rules (rule :: rules')

namespace Interspersed

variable {added : Rule → Prop}

theorem sublist (h : Interspersed added rules rules') : rules.Sublist rules' := by
  induction h with
  | nil => exact .slnil
  | keep rule _ ih => exact ih.cons_cons rule
  | add rule _ _ ih => exact ih.cons rule

/-- Rules that give nothing can be put in anywhere. -/
theorem flatMap_eq {α : Type} {f : Rule → List α} (hf : ∀ rule, added rule → f rule = [])
    (h : Interspersed added rules rules') : rules.flatMap f = rules'.flatMap f := by
  induction h with
  | nil => rfl
  | keep rule _ ih => rw [List.flatMap_cons, List.flatMap_cons, ih]
  | add rule hrule _ ih => rw [List.flatMap_cons, hf rule hrule, List.nil_append, ih]

end Interspersed

theorem Rule.Unbounding.demands_eq_nil {rule : Rule} (h : rule.Unbounding) :
    rule.demands v = [] := by
  obtain ⟨line, statement⟩ := rule
  obtain ⟨sources, targets, rfl, hfree⟩ := h
  have hnone {tokens : List Token} (hsub : tokens ⊆ sources ++ targets) (i : ClassId)
      (c : Cardinality) : (i, some c) ∉ expandTokens v tokens := by
    intro hmem
    obtain ⟨-, -, t, ht, -, hbound⟩ := mem_expandTokens.mp hmem
    obtain ⟨hc, hbounded⟩ := Option.mem_filter_iff.mp hbound
    rw [hfree t (hsub ht) c hc] at hbounded
    cases hbounded
  rw [List.eq_nil_iff_forall_not_mem]
  intro q hq
  obtain ⟨-, s, t, ⟨-, hs, -⟩ | ⟨-, ht, -⟩⟩ := mem_demands_attachment.mp hq
  · exact hnone (List.subset_append_left _ _) s _ hs
  · exact hnone (List.subset_append_right _ _) t _ ht

theorem demands_eq_of_unbounding (h : Interspersed Rule.Unbounding rules rules') :
    rules.flatMap (Rule.demands v) = rules'.flatMap (Rule.demands v) :=
  h.flatMap_eq fun _ hrule => hrule.demands_eq_nil

/-- A class that attaches somewhere still does so under more rules. -/
theorem isOrphan_eq_false_of_subset (hrules : rules ⊆ rules') {p : Position}
    (hname : v.name? p.classId = some name)
    (h : Draft.isOrphan (draftOf rules v strict).relation p = false) :
    Draft.isOrphan (draftOf rules' v strict).relation p = false := by
  rw [Bool.eq_false_iff] at h ⊢
  intro horphan
  have hisolated := (isOrphan_iff hname).mp horphan
  refine h ((isOrphan_iff hname).mpr fun other => ?_)
  exact ⟨fun ha => (hisolated other).1 (ha.of_subset hrules),
    fun ha => (hisolated other).2 (ha.of_subset hrules)⟩

theorem exists_ok_of_unbounding (h : Interspersed Rule.Unbounding rules rules')
    (hok : ∃ out, compile rules v false = .ok out) : ∃ out, compile rules' v false = .ok out := by
  rw [exists_compile_eq_ok] at hok ⊢
  rw [← demands_eq_of_unbounding h]
  refine ⟨nofun, hok.2.1, fun q hq => ?_⟩
  obtain ⟨name, role, hnames⟩ := exists_names hq
  exact isOrphan_eq_false_of_subset h.sublist.subset hnames.name_eq (hok.2.2 q hq)

theorem bounds_eq_of_unbounding (h : Interspersed Rule.Unbounding rules rules')
    (hout : compile rules v strict = .ok out) (hout' : compile rules' v strict' = .ok out') :
    out.grammar.bounds = out'.grammar.bounds := by
  rw [(compile_eq_ok hout).2.2.2, (compile_eq_ok hout').2.2.2, table_draftOf, table_draftOf,
    demands_eq_of_unbounding h]

theorem Grammar.bound_congr {g g' : Grammar} (hvocabulary : g.vocabulary = g'.vocabulary)
    (hbounds : g.bounds = g'.bounds) (name : String) (role : Role String) :
    g.bound name role = g'.bound name role := by
  have hids : g.classId? = g'.classId? := by
    funext a
    rw [classId?, classId?, hvocabulary]
  have hdeclared : g.declared? = g'.declared? := by
    funext id key
    rw [declared?, declared?, hbounds]
  rw [bound, bound, declaredByName?, declaredByName?, hids, hdeclared]

/-- Rules that are added can only allow more and bound more tightly; those that bound nothing never
keep rules from compiling. -/
theorem compile_more_rules (rules rules' : List Rule) (v : Vocabulary) :
    (rules.Sublist rules' → ∀ strict out out', compile rules v strict = .ok out →
      compile rules' v strict = .ok out' → out.grammar.TightenedBy out'.grammar ∧
        ∀ graph, (out.grammar.validate graph).TightenedBy (out'.grammar.validate graph)) ∧
    (Interspersed Rule.Unbounding rules rules' → ∀ out, compile rules v false = .ok out →
      ∃ out', compile rules' v false = .ok out' ∧ out.grammar.bounds = out'.grammar.bounds ∧
        ∀ graph, (out.grammar.validate graph).cardinalities =
          (out'.grammar.validate graph).cardinalities) := by
  refine ⟨fun hsub strict out out' hout hout' => ?_, fun hadded out hout => ?_⟩
  · have htightened := tightenedBy_of_subset hsub.subset hout hout'
    exact ⟨htightened, htightened.validate⟩
  · obtain ⟨out', hout'⟩ := exists_ok_of_unbounding hadded ⟨out, hout⟩
    have hbounds := bounds_eq_of_unbounding hadded hout hout'
    have hvocabulary : out.grammar.vocabulary = out'.grammar.vocabulary := by
      rw [(compile_eq_ok hout).2.1, (compile_eq_ok hout').2.1]
    refine ⟨out', hout', hbounds, fun graph => ?_⟩
    exact Grammar.cardinalities_validate_congr fun a role _ _ =>
      Grammar.bound_congr hvocabulary hbounds a role

def serviceRules : List Rule := [
  ⟨1, .attachment [⟨⟨"api"⟩, some (.atMost 3)⟩] [⟨⟨"db"⟩, none⟩]⟩,
  ⟨2, .sourceAggregate [⟨⟨"api"⟩, some (.atLeast 1)⟩]⟩]

/-- A rule that bounds nothing. -/
def serviceRule : Rule := ⟨7, .attachment [⟨⟨"a*"⟩, some .unbounded⟩] [⟨⟨"d*"⟩, none⟩]⟩

def serviceBound : Rule := ⟨8, .sourceAggregate [⟨⟨"api"⟩, some (.atMost 1)⟩]⟩

def serviceEdits : List Edit := [
  .addNode 1 "api", .addNode 2 "app", .addNode 3 "db", .addNode 4 "db",
  .addEdge ⟨1, 3⟩, .addEdge ⟨1, 4⟩, .addEdge ⟨2, 3⟩]

/-- One added rule permits an edge, and another makes a count wrong. -/
theorem compile_more_rules_services : ∃ out out' out'',
    compile serviceRules (.ofNames ["api", "app", "db"]) false = .ok out ∧
      compile (serviceRule :: serviceRules ++ [serviceBound]) (.ofNames ["api", "app", "db"]) false =
        .ok out' ∧
      out.grammar.TightenedBy out'.grammar ∧
      (out.grammar.validate (Graph.run serviceEdits .empty)).TightenedBy
        (out'.grammar.validate (Graph.run serviceEdits .empty)) ∧
      out.grammar.validate (Graph.run serviceEdits .empty) =
        ⟨[⟨⟨2, 3⟩, "app", "db", refusal⟩], [], []⟩ ∧
      out'.grammar.validate (Graph.run serviceEdits .empty) =
        ⟨[], [⟨1, "api", .source, 2, ⟨1, some 1⟩⟩], []⟩ ∧
      compile (serviceRule :: serviceRules) (.ofNames ["api", "app", "db"]) false = .ok out'' ∧
      out.grammar.bounds = out''.grammar.bounds := by
  have hsub : serviceRules.Sublist (serviceRule :: serviceRules ++ [serviceBound]) :=
    ((List.Sublist.refl _).cons serviceRule).trans (List.sublist_append_left _ _)
  have hunbounding : serviceRule.Unbounding := ⟨_, _, rfl, by decide +kernel⟩
  have hadded : Interspersed Rule.Unbounding serviceRules (serviceRule :: serviceRules) :=
    .add _ hunbounding (.keep _ (.keep _ .nil))
  obtain ⟨htightened, hreports⟩ :=
    (compile_more_rules _ _ (.ofNames ["api", "app", "db"])).1 hsub false _ _ rfl rfl
  obtain ⟨out'', hout'', hbounds, -⟩ :=
    (compile_more_rules _ _ (.ofNames ["api", "app", "db"])).2 hadded _ rfl
  exact ⟨_, _, out'', rfl, rfl, htightened, hreports _, by decide +kernel, by decide +kernel,
    hout'', hbounds⟩

end AttachmentGrammar
