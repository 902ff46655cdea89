import AttachmentGrammar.Proofs.Grammar.Outcome
import Mathlib.Data.List.Perm.Basic
/-!
Rules in another order. Main statement: permuting rules, and the tokens in every side of them,
changes neither whether they compile nor the grammar; of the warnings, the unmatched patterns are
permuted, and the bounds that cannot be met stay in place and may name another line.
-/
namespace AttachmentGrammar

open Cardinality (narrowest agree_perm)

namespace Statement

/-- The same statement, with the tokens of each side in some order. -/
inductive Reordered : Statement → Statement → Prop
  | attachment {sources sources' targets targets' : List Token} (hs : sources.Perm sources')
      (ht : targets.Perm targets') :
      Reordered (.attachment sources targets) (.attachment sources' targets')
  | sourceAggregate {sources sources' : List Token} (hs : sources.Perm sources') :
      Reordered (.sourceAggregate sources) (.sourceAggregate sources')
  | targetAggregate {targets targets' : List Token} (ht : targets.Perm targets') :
      Reordered (.targetAggregate targets) (.targetAggregate targets')

variable {v : Vocabulary} {s s' : Statement}

theorem expandTokens_perm {tokens tokens' : List Token} (h : tokens.Perm tokens') :
    (expandTokens v tokens).Perm (expandTokens v tokens') :=
  h.flatMap_right _

theorem Reordered.sources (h : s.Reordered s') : s.sources.Perm s'.sources := by
  cases h with
  | attachment hs ht => exact hs
  | sourceAggregate hs => exact hs
  | targetAggregate ht => exact .refl _

theorem Reordered.targets (h : s.Reordered s') : s.targets.Perm s'.targets := by
  cases h with
  | attachment hs ht => exact ht
  | sourceAggregate hs => exact .refl _
  | targetAggregate ht => exact ht

theorem Reordered.pairs (h : s.Reordered s') : (s.pairs v).Perm (s'.pairs v) := by
  cases h with
  | attachment hs ht =>
    exact (expandTokens_perm hs).flatMap fun _ _ => (expandTokens_perm ht).flatMap_right _
  | sourceAggregate hs => exact .refl _
  | targetAggregate ht => exact .refl _

theorem Reordered.demands (h : s.Reordered s') (line : Nat) :
    (s.demands v line).Perm (s'.demands v line) := by
  cases h with
  | attachment hs ht =>
    exact (expandTokens_perm hs).flatMap fun _ _ => (expandTokens_perm ht).flatMap_right _
  | sourceAggregate hs => exact (expandTokens_perm hs).flatMap_right _
  | targetAggregate ht => exact (expandTokens_perm ht).flatMap_right _

end Statement

structure Rule.Reordered (rule rule' : Rule) : Prop where
  line_eq : rule.line = rule'.line
  statement : rule.statement.Reordered rule'.statement

namespace Rule.Reordered

variable {v : Vocabulary} {rule rule' : Rule}

theorem demands (h : rule.Reordered rule') : (rule.demands v).Perm (rule'.demands v) := by
  rw [Rule.demands, Rule.demands, h.line_eq]
  exact h.statement.demands rule'.line

theorem unmatched (h : rule.Reordered rule') : (rule.unmatched v).Perm (rule'.unmatched v) := by
  have hpatterns {tokens tokens' : List Token} (htokens : tokens.Perm tokens') :
      (unmatchedPatterns v tokens).Perm (unmatchedPatterns v tokens') :=
    (htokens.filter _).map _
  rw [Rule.unmatched, Rule.unmatched, h.line_eq]
  exact ((hpatterns h.statement.sources).map _).append ((hpatterns h.statement.targets).map _)

end Rule.Reordered

/-- The rules are permuted, and then the tokens of each. -/
def Reordering (rules rules' : List Rule) : Prop :=
  ∃ between, rules.Perm between ∧ List.Forall₂ Rule.Reordered between rules'

variable {rules rules' : List Rule} {v : Vocabulary} {strict : Bool}

theorem forall₂_flatMap_perm {α β : Type} {R : α → α → Prop} {f : α → List β}
    (hf : ∀ a a', R a a' → (f a).Perm (f a')) {items items' : List α}
    (h : List.Forall₂ R items items') : (items.flatMap f).Perm (items'.flatMap f) := by
  induction h with
  | nil => exact .refl _
  | cons hfirst hrest ih =>
    rw [List.flatMap_cons, List.flatMap_cons]
    exact (hf _ _ hfirst).append ih

namespace Reordering

theorem length_eq (h : Reordering rules rules') : rules.length = rules'.length := by
  obtain ⟨between, hperm, hsides⟩ := h
  rw [hperm.length_eq, hsides.length_eq]

/-- What each rule gives up to order, all rules give up to order. -/
theorem flatMap {α : Type} {f : Rule → List α}
    (hf : ∀ rule rule', rule.Reordered rule' → (f rule).Perm (f rule'))
    (h : Reordering rules rules') : (rules.flatMap f).Perm (rules'.flatMap f) := by
  obtain ⟨between, hperm, hsides⟩ := h
  exact (hperm.flatMap_right f).trans (forall₂_flatMap_perm hf hsides)

theorem demands (h : Reordering rules rules') :
    (rules.flatMap (Rule.demands v)).Perm (rules'.flatMap (Rule.demands v)) :=
  h.flatMap fun _ _ hrule => hrule.demands

theorem unmatched (h : Reordering rules rules') :
    (rules.flatMap (Rule.unmatched v)).Perm (rules'.flatMap (Rule.unmatched v)) :=
  h.flatMap fun _ _ hrule => hrule.unmatched

theorem asked (h : Reordering rules rules') (p : Position) :
    (asked (rules.flatMap (Rule.demands v)) p).Perm (asked (rules'.flatMap (Rule.demands v)) p) :=
  (h.demands.filter _).map _

theorem relation_eq (h : Reordering rules rules') :
    (draftOf rules v strict).relation = (draftOf rules' v strict).relation := by
  rw [draftOf, draftOf, Draft.relation_foldl_addRule, Draft.relation_foldl_addRule]
  exact Relation.foldl_insertPair_perm (h.flatMap fun _ _ hrule => hrule.statement.pairs) _

/-- Without errors the table binds each position alike. -/
theorem bounds_eq (h : Reordering rules rules') (hok : (draftOf rules v strict).errors = [])
    (hok' : (draftOf rules' v strict).errors = []) :
    (draftOf rules v strict).table.mapValues Entry.bound =
      (draftOf rules' v strict).table.mapValues Entry.bound := by
  apply SortedMap.ext_get?
  intro p
  have hsettled := Draft.settled_foldl_addRule (Draft.settled_empty v) hok p
  have hsettled' := Draft.settled_foldl_addRule (Draft.settled_empty v) hok' p
  rw [List.nil_append] at hsettled hsettled'
  rw [SortedMap.get?_mapValues, SortedMap.get?_mapValues, draftOf, draftOf, hsettled, hsettled']
  exact Cardinality.narrowest_congr fun c => (h.asked p).mem_iff

/-- Unmatched patterns do not depend on the order, ranges at a position agree in any order, and a
class attaches somewhere in any order. -/
theorem exists_ok (h : Reordering rules rules') :
    (∃ out, compile rules v strict = .ok out) ↔ ∃ out, compile rules' v strict = .ok out := by
  rw [exists_compile_eq_ok, exists_compile_eq_ok]
  refine and_congr ?_ (and_congr ?_ ?_)
  · rw [← List.length_eq_zero_iff, h.unmatched.length_eq, List.length_eq_zero_iff]
  · exact forall_congr' fun p => agree_perm (h.asked p)
  · rw [h.relation_eq]
    exact forall_congr' fun q => by rw [h.demands.mem_iff]

end Reordering

/-! The warnings. -/

namespace Warning

def isUnmatched : Warning → Bool
  | unmatchedPattern _ _ _ => true
  | unsatisfiableBound _ _ _ _ => false

def withLine (line : Nat) : Warning → Warning
  | unmatchedPattern _ side pattern => unmatchedPattern line side pattern
  | unsatisfiableBound _ className role bound => unsatisfiableBound line className role bound

def unmatched (warnings : List Warning) : List Warning := warnings.filter isUnmatched

def unsatisfiable (warnings : List Warning) : List Warning :=
  warnings.filter fun w => !w.isUnmatched

end Warning

theorem Draft.not_isUnmatched {d : Draft} :
    ∀ w ∈ d.unsatisfiable v, w.isUnmatched = false := by
  intro w hw
  obtain ⟨⟨p, entry⟩, -, hw⟩ := List.mem_filterMap.mp hw
  simp only [unsatisfiable?] at hw
  split at hw
  · exact Option.some.inj hw ▸ rfl
  · cases hw

theorem unmatched_accepted : Warning.unmatched (accepted rules v strict).warnings =
    if strict then [] else (rules.flatMap (Rule.unmatched v)).map Unmatched.warning := by
  have hsecond : ((draftOf rules v strict).unsatisfiable v).filter Warning.isUnmatched = [] := by
    rw [List.filter_eq_nil_iff]
    intro w hw
    rw [Draft.not_isUnmatched w hw]
    exact Bool.false_ne_true
  have hall : ∀ w ∈ (rules.flatMap (Rule.unmatched v)).map Unmatched.warning,
      w.isUnmatched = true := by
    intro w hw
    obtain ⟨u, -, rfl⟩ := List.mem_map.mp hw
    rfl
  rw [Warning.unmatched, accepted, List.filter_append, hsecond, draftOf,
    Draft.warnings_foldl_addRule, Draft.empty, List.nil_append, List.append_nil]
  split
  · rfl
  · exact List.filter_eq_self.mpr hall

theorem unsatisfiable_accepted : Warning.unsatisfiable (accepted rules v strict).warnings =
    (draftOf rules v strict).unsatisfiable v := by
  have hall : ((draftOf rules v strict).unsatisfiable v).filter (fun w => !w.isUnmatched) =
      (draftOf rules v strict).unsatisfiable v := by
    rw [List.filter_eq_self]
    intro w hw
    rw [Draft.not_isUnmatched w hw, Bool.not_false]
  have hfirst : ((rules.flatMap (Rule.unmatched v)).map Unmatched.warning).filter
      (fun w => !w.isUnmatched) = [] := by
    rw [List.filter_eq_nil_iff]
    intro w hw
    obtain ⟨u, -, rfl⟩ := List.mem_map.mp hw
    exact Bool.false_ne_true
  rw [Warning.unsatisfiable, accepted, List.filter_append, hall, draftOf,
    Draft.warnings_foldl_addRule, Draft.empty, List.nil_append]
  split
  · rfl
  · rw [hfirst, List.nil_append]

/-- Apart from the line a warning needs only the relation and the bounds. -/
theorem Draft.unsatisfiable_withLine_congr {d d' : Draft} (hrelation : d.relation = d'.relation)
    (hbounds : d.table.mapValues Entry.bound = d'.table.mapValues Entry.bound) (line : Nat) :
    (d.unsatisfiable v).map (Warning.withLine line) =
      (d'.unsatisfiable v).map (Warning.withLine line) := by
  have hbound (r : Relation) (p : Position) (entry : Entry) :
      (unsatisfiable? v r p entry).map (Warning.withLine line) =
        unsatisfiable? v r p ⟨entry.bound, [line]⟩ := by
    simp only [unsatisfiable?]
    split <;> rfl
  have htable (d : Draft) : (d.unsatisfiable v).map (Warning.withLine line) =
      (d.table.mapValues Entry.bound).toList.filterMap fun e =>
        unsatisfiable? v d.relation e.1 ⟨e.2, [line]⟩ := by
    rw [unsatisfiable, List.map_filterMap, SortedMap.mapValues, List.filterMap_map]
    exact List.filterMap_congr fun e _ => hbound d.relation e.1 e.2
  rw [htable, htable, hrelation, hbounds]

/-- The order of rules and of the tokens in their sides does not matter. -/
theorem compile_reordering (h : Reordering rules rules') :
    ((∃ out, compile rules v strict = .ok out) ↔ ∃ out, compile rules' v strict = .ok out) ∧
      ∀ out out', compile rules v strict = .ok out → compile rules' v strict = .ok out' →
        out.grammar = out'.grammar ∧
          (Warning.unmatched out.warnings).Perm (Warning.unmatched out'.warnings) ∧
            (Warning.unsatisfiable out.warnings).map (Warning.withLine 0) =
              (Warning.unsatisfiable out'.warnings).map (Warning.withLine 0) := by
  refine ⟨h.exists_ok, fun out out' hout hout' => ?_⟩
  have hbounds := h.bounds_eq (compile_eq_ok hout).1 (compile_eq_ok hout').1
  obtain ⟨-, rfl⟩ := compile_eq_ok_iff.mp hout
  obtain ⟨-, rfl⟩ := compile_eq_ok_iff.mp hout'
  refine ⟨?_, ?_, ?_⟩
  · simp only [accepted, h.relation_eq, hbounds, h.length_eq]
  · rw [unmatched_accepted, unmatched_accepted]
    split
    · exact .refl _
    · exact h.unmatched.map _
  · rw [unsatisfiable_accepted, unsatisfiable_accepted]
    exact Draft.unsatisfiable_withLine_congr h.relation_eq hbounds 0

def edgeRules : List Rule := [
  ⟨1, .attachment [⟨⟨"a*"⟩, some (.atMost 2)⟩, ⟨⟨"cdn"⟩, none⟩] [⟨⟨"db"⟩, none⟩]⟩,
  ⟨2, .targetAggregate [⟨⟨"api"⟩, some (.atLeast 1)⟩]⟩,
  ⟨3, .targetAggregate [⟨⟨"ap*"⟩, some (.atMost 3)⟩, ⟨⟨"api"⟩, some (.exactly 1)⟩]⟩]

def edgeRulesReversed : List Rule := [
  ⟨3, .targetAggregate [⟨⟨"api"⟩, some (.exactly 1)⟩, ⟨⟨"ap*"⟩, some (.atMost 3)⟩]⟩,
  ⟨2, .targetAggregate [⟨⟨"api"⟩, some (.atLeast 1)⟩]⟩,
  ⟨1, .attachment [⟨⟨"cdn"⟩, none⟩, ⟨⟨"a*"⟩, some (.atMost 2)⟩] [⟨⟨"db"⟩, none⟩]⟩]

theorem reordering_edgeRules : Reordering edgeRules edgeRulesReversed := by
  refine ⟨edgeRules.reverse, (List.reverse_perm _).symm, ?_⟩
  refine .cons ⟨rfl, .targetAggregate (.swap _ _ _)⟩ ?_
  refine .cons ⟨rfl, .targetAggregate (.refl _)⟩ ?_
  exact .cons ⟨rfl, .attachment (.swap _ _ _) (.refl _)⟩ .nil

/-- One bound cannot be met, and the order decides under which line that is reported. -/
theorem compile_reordering_edge : ∃ out out',
    compile edgeRules (.ofNames ["db", "app", "api"]) false = .ok out ∧
      compile edgeRulesReversed (.ofNames ["db", "app", "api"]) false = .ok out' ∧
        out.grammar = out'.grammar ∧
          (Warning.unsatisfiable out.warnings).map Warning.line = [2] ∧
            (Warning.unsatisfiable out'.warnings).map Warning.line = [3] ∧
              (Warning.unsatisfiable out.warnings).map (Warning.withLine 0) =
                (Warning.unsatisfiable out'.warnings).map (Warning.withLine 0) := by
  have hsame := @compile_reordering _ _ (.ofNames ["db", "app", "api"]) false reordering_edgeRules
  obtain ⟨hgrammar, -, hbounds⟩ := hsame.2 _ _ rfl rfl
  exact ⟨_, _, rfl, rfl, hgrammar, by decide +kernel, by decide +kernel, hbounds⟩

end AttachmentGrammar
