import AttachmentGrammar.Proofs.Grammar.Renumbering
import AttachmentGrammar.Proofs.Rule.Locality
import AttachmentGrammar.Proofs.Rule.RoundTrip
import Mathlib.Data.List.Nodup
/-!
A text read and written again. Main statement: what is written has the meaning of the text, and what
is reported of it is what is reported of the text, with the rules counted from 1 for their lines.
-/
namespace AttachmentGrammar

variable {rules : List Rule}

/-- The number gives every rule its place, counted from 1. -/
def Rule.IsOrdinal (number : Nat → Nat) (rules : List Rule) : Prop :=
  rules.map (fun rule => number rule.line) = List.range' 1 rules.length

theorem injOn_of_isOrdinal {number : Nat → Nat} (h : Rule.IsOrdinal number rules) :
    (Rule.lines rules).InjOn number := by
  have hnodup : (rules.map fun rule => number rule.line).Nodup := by
    rw [h]
    exact List.nodup_range'
  rintro _ ⟨rule, hrule, rfl⟩ _ ⟨rule', hrule', rfl⟩ heq
  rw [List.inj_on_of_nodup_map hnodup hrule hrule' heq]

theorem numbered_eq_renumber {number : Nat → Nat} (h : Rule.IsOrdinal number rules) :
    Rule.numbered 1 rules = rules.map (Rule.renumber number) := by
  apply List.ext_getElem
  · simp [Rule.numbered]
  · intro i hi hi'
    have hlt : i < rules.length := by simpa using hi'
    have hplace : number rules[i].line = 1 + i := by
      have hget := List.getElem_of_eq h (i := i) (by simpa using hlt)
      simpa using hget
    simp [Rule.numbered, Rule.renumber, hplace]

theorem nodup_line_of_parseLines (n : Nat) (lines : List (List Char)) :
    ((parseLines n lines).2.map Rule.line).Nodup :=
  (increasing_line_parseLines n lines).imp Nat.ne_of_lt

/-- The place of the rule on that line, counted from 1. -/
def Rule.ordinal (rules : List Rule) (line : Nat) : Nat := (rules.map Rule.line).idxOf line + 1

theorem isOrdinal_ordinal (h : (rules.map Rule.line).Nodup) :
    Rule.IsOrdinal (Rule.ordinal rules) rules := by
  apply List.ext_getElem
  · simp
  · intro i hi hi'
    have hplace := h.idxOf_getElem i (by simpa using hi)
    rw [List.getElem_map] at hplace
    simp [Rule.ordinal, hplace, Nat.add_comm]

/-- A text read and written again means the same. It compiles exactly if the text does, to the same
grammar; what is warned of or at fault is the same, with the place of its rule for every line. -/
theorem ofText_renderAll {text : String} (h : parseRules text = .ok rules) (v : Vocabulary)
    (strict : Bool) :
    Rule.IsOrdinal (Rule.ordinal rules) rules ∧ ∀ number, Rule.IsOrdinal number rules →
      ((∃ out, Compilation.ofText (Rule.renderAll rules) v strict = .ok out) ↔
        ∃ out, Compilation.ofText text v strict = .ok out) ∧
      (∀ out, Compilation.ofText text v strict = .ok out →
        ∃ out', Compilation.ofText (Rule.renderAll rules) v strict = .ok out' ∧
          out'.grammar = out.grammar ∧
            out'.warnings = out.warnings.map (Warning.renumber number)) ∧
      ∀ error, Compilation.ofText text v strict = .error error →
        ∃ errors, error = .inconsistent errors ∧
          Compilation.ofText (Rule.renderAll rules) v strict =
            .error (.inconsistent (errors.map (CompileError.renumber number))) := by
  have hlines : (rules.map Rule.line).Nodup := by
    have hnodup := nodup_line_of_parseLines 1 (Text.lines text.toList)
    rwa [parseRules_eq_ok_iff.mp h] at hnodup
  refine ⟨isOrdinal_ordinal hlines, fun number hnumber => ?_⟩
  have hread : Compilation.ofText text v strict =
      (compile rules v strict).mapError .inconsistent := by
    rw [Compilation.ofText, h]
  have hagain : Compilation.ofText (Rule.renderAll rules) v strict =
      (compile (rules.map (Rule.renumber number)) v strict).mapError .inconsistent := by
    rw [Compilation.ofText, parseRules_of_wellFormed (wellFormed_of_parseRules h),
      numbered_eq_renumber hnumber]
  rw [hread, hagain, compile_renumber (injOn_of_isOrdinal hnumber)]
  cases compile rules v strict with
  | ok out =>
    refine ⟨iff_of_true ⟨_, rfl⟩ ⟨_, rfl⟩, fun out' hout => ?_, nofun⟩
    obtain rfl := Except.ok.inj hout
    exact ⟨_, rfl, rfl, rfl⟩
  | error errors =>
    refine ⟨iff_of_false nofun nofun, nofun, fun error herror => ?_⟩
    obtain rfl := Except.error.inj herror
    exact ⟨errors, rfl, rfl⟩

def rackText : String :=
  "# racks\n rack\x7b1,\x7d shelf | switch\n\nrack\x7b2,\x7d|switch\n#\nrack\x7b0\x7d | switch\n"

def rackRules : List Rule := [
  ⟨2, .attachment [⟨⟨"rack"⟩, some (.atLeast 1)⟩, ⟨⟨"shelf"⟩, none⟩] [⟨⟨"switch"⟩, none⟩]⟩,
  ⟨4, .attachment [⟨⟨"rack"⟩, some (.atLeast 2)⟩] [⟨⟨"switch"⟩, none⟩]⟩,
  ⟨6, .attachment [⟨⟨"rack"⟩, some (.exactly 0)⟩] [⟨⟨"switch"⟩, none⟩]⟩]

/-- Where racks are known, the second range narrows the first and the third clashes with both. -/
theorem ofText_renderAll_racks :
    parseRules rackText = .ok rackRules ∧
      Compilation.ofText rackText (.ofNames ["rack", "switch"]) true =
        .error (.inconsistent [.unmatchedPattern 2 .left "shelf", .conflictingCardinality "rack"
          (.sourceOf "switch") (.atLeast 2) [2, 4] (.exactly 0) 6]) ∧
      Compilation.ofText (Rule.renderAll rackRules) (.ofNames ["rack", "switch"]) true =
        .error (.inconsistent [.unmatchedPattern 1 .left "shelf", .conflictingCardinality "rack"
          (.sourceOf "switch") (.atLeast 2) [1, 2] (.exactly 0) 3]) ∧
      ∃ out, Compilation.ofText (Rule.renderAll rackRules) (.ofNames ["switch"]) false = .ok out ∧
        out.warnings = [.unmatchedPattern 1 .left "rack", .unmatchedPattern 1 .left "shelf",
          .unmatchedPattern 2 .left "rack", .unmatchedPattern 3 .left "rack"] := by
  have hparse : parseRules rackText = .ok rackRules := rfl
  have hread : Compilation.ofText rackText (.ofNames ["rack", "switch"]) true =
      .error (.inconsistent [.unmatchedPattern 2 .left "shelf", .conflictingCardinality "rack"
        (.sourceOf "switch") (.atLeast 2) [2, 4] (.exactly 0) 6]) := rfl
  have hlenient : Compilation.ofText rackText (.ofNames ["switch"]) false =
      .ok (accepted rackRules (.ofNames ["switch"]) false) := rfl
  obtain ⟨hnumber, hstrict⟩ := ofText_renderAll hparse (.ofNames ["rack", "switch"]) true
  obtain ⟨-, -, hfault⟩ := hstrict _ hnumber
  obtain ⟨errors, herrors, hrendered⟩ := hfault _ hread
  obtain rfl := GrammarError.inconsistent.inj herrors
  obtain ⟨-, hagain⟩ := ofText_renderAll hparse (.ofNames ["switch"]) false
  obtain ⟨-, hmeaning, -⟩ := hagain _ hnumber
  obtain ⟨out, hout, -, hwarnings⟩ := hmeaning _ hlenient
  refine ⟨hparse, hread, hrendered, out, hout, ?_⟩
  rw [hwarnings]
  decide +kernel

end AttachmentGrammar
