import AttachmentGrammar.Proofs.Grammar.Renumbering
import AttachmentGrammar.Proofs.Rule.Acceptance
import AttachmentGrammar.Proofs.Text.Lines
/-!
Reading line by line. Main statement: a text in two parts gives the rules of both, or the errors of
both, with the lines of the second part counted on; every line that is no comment gives one rule, or
every line at fault one error; and how the lines are ended does not matter.
-/
namespace AttachmentGrammar

open Text (trim)

def ParseError.renumber (f : Nat → Nat) (e : ParseError) : ParseError := { e with line := f e.line }

theorem increasing_zipIdx {α : Type} (items : List α) (n : Nat) :
    (items.zipIdx n).Pairwise fun a b => a.2 < b.2 := by
  have hnumbers : ((items.zipIdx n).map (·.2)).Pairwise (· < ·) := by
    rw [List.zipIdx_map_snd]
    exact List.pairwise_lt_range'
  exact List.pairwise_map.mp hnumbers

/-! What a line with its number gives. -/

def ParseError.ofLine? (entry : List Char × Nat) : Option ParseError :=
  match Statement.parse entry.1 with
  | .error cause => some (cause.locate entry.2 entry.1)
  | .ok _ => none

def Rule.ofLine? (entry : List Char × Nat) : Option Rule :=
  match Statement.parse entry.1 with
  | .error _ => none
  | .ok s? => s?.map (⟨entry.2, ·⟩)

variable {entry : List Char × Nat} {lines lines' : List (List Char)} {n m : Nat}

theorem ParseError.ofLine?_eq_some_iff {e : ParseError} : ofLine? entry = some e ↔
    e.line = entry.2 ∧ e.text = String.ofList (trim entry.1) ∧
      Statement.parse entry.1 = .error e.cause := by
  obtain ⟨line, text, cause⟩ := e
  rw [ofLine?]
  cases Statement.parse entry.1 with
  | error cause' => simp [LineError.locate, eq_comm]
  | ok s? => simp

theorem Rule.ofLine?_eq_some_iff {rule : Rule} : ofLine? entry = some rule ↔
    rule.line = entry.2 ∧ Statement.parse entry.1 = .ok (some rule.statement) := by
  obtain ⟨line, statement⟩ := rule
  rw [ofLine?]
  cases Statement.parse entry.1 with
  | error cause => simp
  | ok s? => cases s? <;> simp [eq_comm]

theorem parseLines_eq (n : Nat) (lines : List (List Char)) : parseLines n lines =
    ((lines.zipIdx n).filterMap ParseError.ofLine?, (lines.zipIdx n).filterMap Rule.ofLine?) := by
  induction lines generalizing n with
  | nil => rfl
  | cons line lines ih =>
    rw [parseLines, ih, List.zipIdx_cons, List.filterMap_cons, List.filterMap_cons,
      ParseError.ofLine?, Rule.ofLine?]
    cases Statement.parse line with
    | error cause => rfl
    | ok s? => cases s? <;> rfl

/-- The rules of a text stand on lines of their own, in order. -/
theorem increasing_line_parseLines (n : Nat) (lines : List (List Char)) :
    ((parseLines n lines).2.map Rule.line).Pairwise (· < ·) := by
  rw [parseLines_eq, List.pairwise_map, List.pairwise_filterMap]
  refine (increasing_zipIdx lines n).imp fun hlt rule hrule rule' hrule' => ?_
  rw [(Rule.ofLine?_eq_some_iff.mp hrule).1, (Rule.ofLine?_eq_some_iff.mp hrule').1]
  exact hlt

theorem parseLines_append (n : Nat) (lines lines' : List (List Char)) :
    parseLines n (lines ++ lines') =
      ((parseLines n lines).1 ++ (parseLines (n + lines.length) lines').1,
        (parseLines n lines).2 ++ (parseLines (n + lines.length) lines').2) := by
  simp only [parseLines_eq, List.zipIdx_append, List.filterMap_append]

/-- Counting from elsewhere changes the numbers only. -/
theorem parseLines_add (n m : Nat) (lines : List (List Char)) : parseLines (n + m) lines =
    ((parseLines n lines).1.map (ParseError.renumber (· + m)),
      (parseLines n lines).2.map (Rule.renumber (· + m))) := by
  have hshift : lines.zipIdx (n + m) = (lines.zipIdx n).map fun entry => (entry.1, entry.2 + m) := by
    rw [Nat.add_comm n m, ← List.map_snd_add_zipIdx_eq_zipIdx]
    rfl
  have herror (entry : List Char × Nat) : ParseError.ofLine? (entry.1, entry.2 + m) =
      (ParseError.ofLine? entry).map (ParseError.renumber (· + m)) := by
    simp only [ParseError.ofLine?]
    cases Statement.parse entry.1 <;> rfl
  have hrule (entry : List Char × Nat) : Rule.ofLine? (entry.1, entry.2 + m) =
      (Rule.ofLine? entry).map (Rule.renumber (· + m)) := by
    simp only [Rule.ofLine?]
    cases Statement.parse entry.1 with
    | error cause => rfl
    | ok s? => cases s? <;> rfl
  simp only [parseLines_eq, hshift, List.filterMap_map, List.map_filterMap, Function.comp_def,
    herror, hrule]

/-- Blanks around the lines do not matter. -/
theorem parseLines_congr (h : lines.map trim = lines'.map trim) :
    parseLines n lines = parseLines n lines' := by
  induction lines generalizing n lines' with
  | nil =>
    obtain rfl : [] = lines' := (List.map_eq_nil_iff.mp h.symm).symm
    rfl
  | cons line lines ih =>
    cases lines' with
    | nil => cases h
    | cons line' lines' =>
      obtain ⟨hline, hlines⟩ := List.cons.inj h
      have hparse : Statement.parse line = Statement.parse line' := by
        simp only [Statement.parse, hline]
      have hlocate (cause : LineError) : cause.locate n line = cause.locate n line' := by
        rw [LineError.locate, LineError.locate, hline]
      simp only [parseLines, ih hlines, hparse, hlocate]

/-! The lines of a text by number. -/

namespace Text

/-- The lines of a text with their numbers, counted from 1. -/
def numbered (text : String) : List (List Char × Nat) := (Text.lines text.toList).zipIdx 1

/-- The numbers of the lines of this kind. -/
def numbersOf (kind : List Char → Bool) (text : String) : List Nat :=
  ((numbered text).filter fun entry => kind entry.1).map (·.2)

theorem increasing_numbersOf (kind : List Char → Bool) (text : String) :
    (numbersOf kind text).Pairwise (· < ·) :=
  List.pairwise_map.mpr ((increasing_zipIdx _ 1).filter _)

/-- The lines of the kind give one item each, with its number, and the others give none. -/
theorem map_filterMap_numbered {α : Type} {text : String} {kind : List Char → Bool}
    {item? : List Char × Nat → Option α} {number : α → Nat}
    (h : ∀ entry ∈ numbered text,
      (item? entry).map number = if kind entry.1 then some entry.2 else none) :
    ((numbered text).filterMap item?).map number = numbersOf kind text := by
  rw [List.map_filterMap, List.filterMap_congr h, numbersOf, ← List.filterMap_eq_map,
    List.filterMap_filter]
  rfl

end Text

/-! What a text reads as. -/

abbrev Reading := Except (List ParseError) (List Rule)

namespace Reading

/-- All rules, or all errors if there are any. -/
def of : List ParseError × List Rule → Reading
  | ([], rules) => .ok rules
  | (errors, _) => .error errors

/-- What two parts give together. -/
def append : Reading → Reading → Reading
  | .ok rules, .ok rules' => .ok (rules ++ rules')
  | .ok _, .error errors' => .error errors'
  | .error errors, .ok _ => .error errors
  | .error errors, .error errors' => .error (errors ++ errors')

/-- What a part gives that stands below so many other lines. -/
def below (m : Nat) : Reading → Reading
  | .ok rules => .ok (rules.map (Rule.renumber (· + m)))
  | .error errors => .error (errors.map (ParseError.renumber (· + m)))

variable {errors errors' : List ParseError} {rules rules' : List Rule}

theorem of_eq_ok_iff : of (errors, rules) = .ok rules' ↔ errors = [] ∧ rules = rules' := by
  cases errors <;> simp [of]

theorem of_eq_error_iff : of (errors, rules) = .error errors' ↔ errors ≠ [] ∧ errors = errors' := by
  cases errors <;> simp [of]

theorem append_of : append (of (errors, rules)) (of (errors', rules')) =
    of (errors ++ errors', rules ++ rules') := by
  cases errors <;> cases errors' <;> simp [of, append]

theorem below_of (m : Nat) : below m (of (errors, rules)) =
    of (errors.map (ParseError.renumber (· + m)), rules.map (Rule.renumber (· + m))) := by
  cases errors <;> rfl

end Reading

variable {text : String} {errors : List ParseError} {rules : List Rule}

theorem parseRules_eq (text : String) :
    parseRules text = Reading.of (parseLines 1 (Text.lines text.toList)) := rfl

theorem parseRules_eq_of (text : String) : parseRules text =
    Reading.of ((Text.numbered text).filterMap ParseError.ofLine?,
      (Text.numbered text).filterMap Rule.ofLine?) := by
  rw [parseRules_eq, parseLines_eq]
  rfl

theorem parseRules_append (text text' : String) (h : Text.EndsLine text.toList) :
    parseRules (text ++ text') =
      Reading.append (parseRules text) (Reading.below (text.toList.count '\n') (parseRules text')) := by
  simp only [parseRules_eq, String.toList_append, Text.lines_append h, parseLines_append,
    Text.length_lines h, parseLines_add 1]
  rw [Reading.below_of, Reading.append_of]

theorem parseRules_withReturns (text : String) :
    parseRules (String.ofList (Text.withReturns text.toList)) = parseRules text := by
  rw [parseRules_eq, parseRules_eq, String.toList_ofList]
  exact congrArg Reading.of (parseLines_congr (Text.map_trim_lines_withReturns text.toList))

/-- Where no line is at fault, the lines that are no comments give the rules. -/
theorem map_line_of_parseRules (h : parseRules text = .ok rules) :
    rules.map Rule.line = Text.numbersOf (fun line => ¬Statement.IsSilent line) text := by
  rw [parseRules_eq_of] at h
  obtain ⟨hnone, rfl⟩ := Reading.of_eq_ok_iff.mp h
  refine Text.map_filterMap_numbered fun entry hentry => ?_
  have hfault : ParseError.ofLine? entry = none := List.filterMap_eq_nil_iff.mp hnone entry hentry
  rw [Rule.ofLine?]
  cases hparse : Statement.parse entry.1 with
  | error cause => simp [ParseError.ofLine?, hparse] at hfault
  | ok s? =>
    cases s? with
    | none => simp [Statement.parse_eq_none_iff.mp hparse]
    | some s =>
      have hsilent : ¬Statement.IsSilent entry.1 := fun hsilent => by
        cases hparse.symm.trans (Statement.parse_eq_none_iff.mpr hsilent)
      simp [hsilent]

theorem map_line_of_parseRules_error (h : parseRules text = .error errors) :
    errors.map ParseError.line = Text.numbersOf (fun line => !(Statement.parse line).isOk) text := by
  rw [parseRules_eq_of] at h
  obtain ⟨-, rfl⟩ := Reading.of_eq_error_iff.mp h
  refine Text.map_filterMap_numbered fun entry _ => ?_
  rw [ParseError.ofLine?]
  cases Statement.parse entry.1 <;> rfl

/-- A text is read line by line. Two parts give what they give apart, the second counted on from the
first. All numbers increase; a rule stands for each line that is no comment, or an error for each
line at fault, and says what that line reads as. Ending the lines in the other way changes nothing. -/
theorem parseRules_line_by_line :
    (∀ text text' : String, Text.EndsLine text.toList → parseRules (text ++ text') =
      Reading.append (parseRules text) (Reading.below (text.toList.count '\n') (parseRules text'))) ∧
    (∀ text rules, parseRules text = .ok rules →
      (rules.map Rule.line).Pairwise (· < ·) ∧
      rules.map Rule.line = Text.numbersOf (fun line => ¬Statement.IsSilent line) text ∧
      ∀ rule ∈ rules, ∃ line, (line, rule.line) ∈ Text.numbered text ∧
        Statement.parse line = .ok (some rule.statement)) ∧
    (∀ text errors, parseRules text = .error errors →
      (errors.map ParseError.line).Pairwise (· < ·) ∧
      errors.map ParseError.line = Text.numbersOf (fun line => !(Statement.parse line).isOk) text ∧
      ∀ e ∈ errors, ∃ line, (line, e.line) ∈ Text.numbered text ∧ e.text = String.ofList (trim line) ∧
        Statement.parse line = .error e.cause) ∧
    ∀ text : String, parseRules (String.ofList (Text.withReturns text.toList)) = parseRules text := by
  refine ⟨parseRules_append, fun text rules h => ?_, fun text errors h => ?_, parseRules_withReturns⟩
  · have hlines := map_line_of_parseRules h
    refine ⟨hlines ▸ Text.increasing_numbersOf _ text, hlines, fun rule hrule => ?_⟩
    rw [parseRules_eq_of] at h
    obtain ⟨-, rfl⟩ := Reading.of_eq_ok_iff.mp h
    obtain ⟨⟨line, n⟩, hentry, hof⟩ := List.mem_filterMap.mp hrule
    obtain ⟨rfl, hparse⟩ := Rule.ofLine?_eq_some_iff.mp hof
    exact ⟨line, hentry, hparse⟩
  · have hlines := map_line_of_parseRules_error h
    refine ⟨hlines ▸ Text.increasing_numbersOf _ text, hlines, fun e he => ?_⟩
    rw [parseRules_eq_of] at h
    obtain ⟨-, rfl⟩ := Reading.of_eq_error_iff.mp h
    obtain ⟨⟨line, n⟩, hentry, hof⟩ := List.mem_filterMap.mp he
    obtain ⟨rfl, htext, hparse⟩ := ParseError.ofLine?_eq_some_iff.mp hof
    exact ⟨line, hentry, htext, hparse⟩

def laneText : String := "# lanes\nbus\x7b,2\x7d | stop\r\n"

def laneRules : List Rule :=
  [⟨2, .attachment [⟨⟨"bus"⟩, some (.atMost 2)⟩] [⟨⟨"stop"⟩, none⟩]⟩]

def brokenText : String := "bu\x7ds |\ntram | stop\n  stop "

def brokenErrors : List ParseError :=
  [⟨1, "bu\x7ds |", .token "bu\x7ds" .unmatchedBrace⟩, ⟨3, "stop", .missingSeparator⟩]

/-- A comment and a rule, above a text with faults on its first and its third line. -/
theorem parseRules_line_by_line_lanes :
    Text.EndsLine laneText.toList ∧ parseRules laneText = .ok laneRules ∧
    parseRules brokenText = .error brokenErrors ∧
    parseRules (laneText ++ brokenText) =
      .error (brokenErrors.map (ParseError.renumber (· + 2))) ∧
    laneRules.map Rule.line =
      Text.numbersOf (fun line => ¬Statement.IsSilent line) laneText ∧
    brokenErrors.map ParseError.line =
      Text.numbersOf (fun line => !(Statement.parse line).isOk) brokenText := by
  obtain ⟨hparts, hrules, herrors, -⟩ := parseRules_line_by_line
  have hends : Text.EndsLine laneText.toList := by decide
  have hlanes : parseRules laneText = .ok laneRules := rfl
  have hbroken : parseRules brokenText = .error brokenErrors := rfl
  have hboth := hparts laneText brokenText hends
  rw [hlanes, hbroken] at hboth
  exact ⟨hends, hlanes, hbroken, hboth, (hrules _ _ hlanes).2.1, (herrors _ _ hbroken).2.1⟩

end AttachmentGrammar
