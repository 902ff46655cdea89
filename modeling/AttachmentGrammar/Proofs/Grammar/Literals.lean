import AttachmentGrammar.Grammar.Load
import AttachmentGrammar.Proofs.Grammar.Diagnosis
import AttachmentGrammar.Proofs.Grammar.Reordering
import AttachmentGrammar.Proofs.Grammar.Views
import AttachmentGrammar.Proofs.Rule.RoundTrip
/-!
Rules compiled against the classes that they name themselves. Main statement: for rules that are
read from a text these classes are the patterns without a star; only a pattern with a star that
covers none of them is ever reported as unmatched; and whatever the grammar allows or bounds is
written in the text.
-/
namespace AttachmentGrammar

variable {rules : List Rule} {text name : String} {strict : Bool} {t : Token}

/-- Some token names the class by a pattern without a star. -/
def Literal (rules : List Rule) (name : String) : Prop :=
  ∃ rule ∈ rules, ∃ t ∈ rule.statement.sources ++ rule.statement.targets,
    t.pattern.hasWildcard = false ∧ t.pattern.text = name

/-! Classes named by the rules. -/

theorem Pattern.WellFormed.trim_text {p : Pattern} (h : p.WellFormed) :
    String.ofList (Text.trim p.text.toList) = p.text ∧ p.text ≠ "" := by
  constructor
  · rw [h.isWord.trim_eq, String.ofList_toList]
  · intro hempty
    apply h.isWord.ne_nil
    rw [hempty]
    rfl

theorem mem_names_ofRules (h : ∀ rule ∈ rules, rule.statement.WellFormed) :
    name ∈ (Vocabulary.ofRules rules).names ↔ Literal rules name := by
  have htrim {rule : Rule} (hrule : rule ∈ rules) {t : Token}
      (ht : t ∈ rule.statement.sources ++ rule.statement.targets) :=
    ((h rule hrule).token t ht).pattern.trim_text
  simp only [Vocabulary.ofRules, Vocabulary.mem_names_ofNames, List.mem_map, List.mem_filter,
    List.mem_flatMap, Bool.not_eq_true', exists_exists_and_eq_and]
  constructor
  · intro hname
    obtain ⟨-, t, ⟨⟨rule, hrule, ht⟩, hstar⟩, rfl⟩ := hname
    exact ⟨rule, hrule, t, ht, hstar, (htrim hrule ht).1.symm⟩
  · intro hname
    obtain ⟨rule, hrule, t, ht, hstar, rfl⟩ := hname
    exact ⟨(htrim hrule ht).2, t, ⟨⟨rule, hrule, ht⟩, hstar⟩, (htrim hrule ht).1⟩

/-! What is written in the text. -/

theorem Token.text_prefix_of_parse {w : List Char} (h : Token.parse w = .ok t) :
    t.pattern.text.toList <+: w := by
  rcases cases_of_parse h with ⟨-, -, rfl⟩ | ⟨pattern, range, c, rfl, -, -, -, -, rfl⟩
  · exact (congrArg (· <+: w) String.toList_ofList).mpr List.prefix_rfl
  · rw [String.toList_ofList]
    exact List.prefix_append _ _

theorem Statement.text_infix_of_parse {s : Statement} {line : List Char}
    (h : Statement.parse line = .ok (some s)) (ht : t ∈ s.sources ++ s.targets) :
    t.pattern.text.toList <:+: line := by
  obtain ⟨-, left, right, htrim, -, -, hsources, htargets, -⟩ := parse_eq_ok_some_iff.mp h
  have hside {side : List Char} {tokens : List Token} (hside : side <:+: Text.trim line)
      (htokens : parseTokens (Text.words side) = .ok tokens) (ht : t ∈ tokens) :
      t.pattern.text.toList <:+: line := by
    obtain ⟨w, hw, hparse⟩ := exists_word_of_parseTokens htokens ht
    have hword : t.pattern.text.toList <:+: Text.trim line :=
      (Token.text_prefix_of_parse hparse).isInfix.trans ((Text.infix_of_mem_words hw).trans hside)
    exact hword.trans (Text.infix_trim line)
  rcases List.mem_append.mp ht with ht | ht
  · exact hside (htrim ▸ (List.prefix_append left _).isInfix) hsources ht
  · refine hside ?_ htargets ht
    rw [htrim]
    exact ((List.suffix_cons '|' right).trans (List.suffix_append left _)).isInfix

theorem infix_of_literal (h : parseRules text = .ok rules) (hname : Literal rules name) :
    name.toList <:+: text.toList := by
  obtain ⟨rule, hrule, t, ht, -, rfl⟩ := hname
  have hmem : rule ∈ (parseLines 1 (Text.lines text.toList)).2 := by
    rw [parseRules_eq_ok_iff.mp h]
    exact hrule
  obtain ⟨line, hline, hparse⟩ := exists_line_of_mem_parseLines hmem
  exact (Statement.text_infix_of_parse hparse ht).trans (Text.infix_of_mem_lines hline)

/-! Unmatched patterns. -/

/-- The report is about a token with a star that covers no class named by the rules. -/
def Unmatched.Dangles (rules : List Rule) (u : Unmatched) : Prop :=
  ∃ o ∈ rules.flatMap Rule.occurrences, u = ⟨o.line, o.side, o.token.pattern.text⟩ ∧
    o.token.pattern.hasWildcard = true ∧
      ∀ name, Literal rules name → o.token.pattern.covers name = false

theorem Rule.mem_occurrences {rule : Rule} {o : Occurrence} (h : o ∈ rule.occurrences) :
    o.token ∈ rule.statement.sources ++ rule.statement.targets := by
  rw [List.mem_append]
  rcases List.mem_append.mp h with h | h
  · obtain ⟨t, ht, rfl⟩ := List.mem_map.mp h
    exact .inl ht
  · obtain ⟨t, ht, rfl⟩ := List.mem_map.mp h
    exact .inr ht

/-- A class that a rule names literally is known, and its own pattern covers it. -/
theorem dangles_of_mem_unmatched (h : ∀ rule ∈ rules, rule.statement.WellFormed) {u : Unmatched}
    (hu : u ∈ rules.flatMap (Rule.unmatched (.ofRules rules))) : u.Dangles rules := by
  obtain ⟨rule, hrule, hu⟩ := List.mem_flatMap.mp hu
  have herror := List.mem_map_of_mem (f := Unmatched.error) hu
  rw [rule.map_error_unmatched] at herror
  obtain ⟨o, ho, heq⟩ := List.mem_map.mp herror
  obtain ⟨ho, hidle⟩ := List.mem_filter.mp ho
  have hidle : o.token.Idle (.ofRules rules) := of_decide_eq_true hidle
  refine ⟨o, List.mem_flatMap.mpr ⟨rule, hrule, ho⟩, ?_, ?_, ?_⟩
  · obtain ⟨hline, hside, hpattern⟩ := CompileError.unmatchedPattern.inj heq
    rw [hline, hside, hpattern]
  · cases hstar : o.token.pattern.hasWildcard with
    | true => rfl
    | false =>
      have hliteral : Literal rules o.token.pattern.text :=
        ⟨rule, hrule, o.token, Rule.mem_occurrences ho, hstar, rfl⟩
      have hcovers := hidle _ ((mem_names_ofRules h).mpr hliteral)
      rw [(Pattern.covers_iff_of_literal hstar).mpr rfl] at hcovers
      cases hcovers
  · intro name hname
    exact hidle name ((mem_names_ofRules h).mpr hname)

theorem Unmatched.error_injective : Function.Injective Unmatched.error := by
  intro u u' h
  cases u
  cases u'
  simpa [error] using h

theorem Unmatched.warning_injective : Function.Injective Unmatched.warning := by
  intro u u' h
  cases u
  cases u'
  simpa [warning] using h

theorem mem_unmatched_of_error {v : Vocabulary} {errors : List CompileError} {u : Unmatched}
    (hcompile : compile rules v strict = .error errors) (hu : u.error ∈ errors) :
    strict = true ∧ u ∈ rules.flatMap (Rule.unmatched v) := by
  obtain ⟨rfl, -⟩ := compile_eq_error_iff.mp hcompile
  have hmem : u.error ∈ CompileError.ofKind .unmatched (reported rules v strict) :=
    CompileError.mem_ofKind.mpr ⟨hu, rfl⟩
  rw [ofKind_unmatched_reported] at hmem
  cases strict with
  | false => cases hmem
  | true => exact ⟨rfl, (List.mem_map_of_injective Unmatched.error_injective).mp hmem⟩

theorem mem_unmatched_of_warning {v : Vocabulary} {out : Compilation} {u : Unmatched}
    (hcompile : compile rules v strict = .ok out) (hu : u.warning ∈ out.warnings) :
    strict = false ∧ u ∈ rules.flatMap (Rule.unmatched v) := by
  obtain ⟨-, rfl⟩ := compile_eq_ok_iff.mp hcompile
  have hmem : u.warning ∈ Warning.unmatched (accepted rules v strict).warnings :=
    List.mem_filter.mpr ⟨hu, rfl⟩
  rw [unmatched_accepted] at hmem
  cases strict with
  | true => cases hmem
  | false => exact ⟨rfl, (List.mem_map_of_injective Unmatched.warning_injective).mp hmem⟩

/-! Pairs and bounds. -/

section Compiled

variable {v : Vocabulary} {out : Compilation}

theorem mem_names_of_allows (h : compile rules v strict = .ok out) {source target : String}
    (hallows : out.grammar.allows source target = true) : source ∈ v.names ∧ target ∈ v.names := by
  obtain ⟨i, j, hi, hj, -⟩ := Grammar.allows_iff_ids.mp hallows
  rw [(compile_eq_ok h).2.1] at hi hj
  exact ⟨Vocabulary.mem_names_iff.mpr ⟨i, hi⟩, Vocabulary.mem_names_iff.mpr ⟨j, hj⟩⟩

theorem knows_of_mem_declaredBounds (h : compile rules v strict = .ok out) {role : Role String}
    {bound : Cardinality} (hbound : (name, role, bound) ∈ out.grammar.declaredBounds) :
    v.Knows name role := by
  have hdeclared := (Grammar.mem_declaredBounds (wellFormed_of_compile h)).mp hbound
  obtain ⟨p, hnames, -⟩ := Grammar.declaredByName?_eq_some_iff_names.mp hdeclared
  rw [(compile_eq_ok h).2.1] at hnames
  exact Position.exists_names_iff.mp ⟨p, hnames⟩

end Compiled

/-! The whole. -/

theorem compile_ofRules (h : parseRules text = .ok rules) :
    (∀ name, name ∈ (Vocabulary.ofRules rules).names ↔ Literal rules name) ∧
    (∀ name, Literal rules name → name.toList <:+: text.toList) ∧
    ∀ strict,
      (∀ errors, compile rules (.ofRules rules) strict = .error errors →
        ∀ u : Unmatched, u.error ∈ errors → strict = true ∧ u.Dangles rules) ∧
      ∀ out, compile rules (.ofRules rules) strict = .ok out →
        (∀ u : Unmatched, u.warning ∈ out.warnings → strict = false ∧ u.Dangles rules) ∧
        (∀ source target, out.grammar.allows source target = true →
          Literal rules source ∧ Literal rules target) ∧
        ∀ name role bound, (name, role, bound) ∈ out.grammar.declaredBounds →
          Literal rules name ∧ ∀ other ∈ role.other?, Literal rules other := by
  have hform := wellFormed_of_parseRules h
  have hknown {name : String} : name ∈ (Vocabulary.ofRules rules).names ↔ Literal rules name :=
    mem_names_ofRules hform
  refine ⟨fun _ => hknown, fun _ => infix_of_literal h, fun strict => ⟨?_, ?_⟩⟩
  · intro errors hcompile u hu
    obtain ⟨hstrict, hmem⟩ := mem_unmatched_of_error hcompile hu
    exact ⟨hstrict, dangles_of_mem_unmatched hform hmem⟩
  · intro out hcompile
    refine ⟨?_, ?_, ?_⟩
    · intro u hu
      obtain ⟨hstrict, hmem⟩ := mem_unmatched_of_warning hcompile hu
      exact ⟨hstrict, dangles_of_mem_unmatched hform hmem⟩
    · intro source target hallows
      exact (mem_names_of_allows hcompile hallows).imp hknown.mp hknown.mp
    · intro name role bound hbound
      have hknows := knows_of_mem_declaredBounds hcompile hbound
      exact ⟨hknown.mp hknows.name_known, fun other hother =>
        hknown.mp (hknows.other_known other hother)⟩

def harborText : String := "# harbor\nship* crane\x7b,2\x7d | dock\n| dock\x7b1,\x7d\n"

def harborRules : List Rule := [
  ⟨2, .attachment [⟨⟨"ship*"⟩, none⟩, ⟨⟨"crane"⟩, some (.atMost 2)⟩] [⟨⟨"dock"⟩, none⟩]⟩,
  ⟨3, .targetAggregate [⟨⟨"dock"⟩, some (.atLeast 1)⟩]⟩]

/-- Strict reading fails on the one pattern with a star, which covers neither of the two classes. -/
theorem compile_ofRules_harbor : parseRules harborText = .ok harborRules ∧
    (∃ errors, compile harborRules (.ofRules harborRules) true = .error errors ∧
      (⟨2, .left, "ship*"⟩ : Unmatched).error ∈ errors ∧
      Unmatched.Dangles harborRules ⟨2, .left, "ship*"⟩) ∧
    ∃ out, compile harborRules (.ofRules harborRules) false = .ok out ∧
      out.grammar.allows "crane" "dock" = true ∧ Literal harborRules "crane" ∧
      "crane".toList <:+: harborText.toList := by
  have hparse : parseRules harborText = .ok harborRules := by decide +kernel
  obtain ⟨-, htext, hmodes⟩ := compile_ofRules hparse
  refine ⟨hparse, ⟨_, rfl, by decide +kernel, ?_⟩, _, rfl, by decide +kernel, ?_⟩
  · exact ((hmodes true).1 _ rfl _ (by decide +kernel)).2
  · have hcrane := (((hmodes false).2 _ rfl).2.1 "crane" "dock" (by decide +kernel)).1
    exact ⟨hcrane, htext "crane" hcrane⟩

end AttachmentGrammar
