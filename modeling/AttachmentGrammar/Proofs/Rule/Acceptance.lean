import AttachmentGrammar.Proofs.Rule.RoundTrip
import AttachmentGrammar.Proofs.Rule.Spelling
import Mathlib.Data.List.Forall2
/-!
Which lines are read, and as what. Main statement: the outcome of every line is the one that its
form calls for, faults of the bars before faults of the words and these from the left.
-/
namespace AttachmentGrammar

open Text (Runs isBlank trim words)

/-! Sides. -/

theorem parseTokens_eq_ok_iff {ws : List (List Char)} {tokens : List Token} :
    parseTokens ws = .ok tokens ↔ List.Forall₂ (fun w t => t.SpelledBy w) ws tokens := by
  induction ws generalizing tokens with
  | nil => cases tokens <;> simp [parseTokens]
  | cons w ws ih =>
    rw [parseTokens]
    cases hw : Token.parse w with
    | error cause =>
      constructor
      · intro h
        cases h
      · intro h
        cases h with
        | cons ht _ =>
          rw [Token.parse_eq_ok_iff.mpr ht] at hw
          cases hw
    | ok t =>
      have ht : t.SpelledBy w := Token.parse_eq_ok_iff.mp hw
      have hunique {t' : Token} (ht' : t'.SpelledBy w) : t = t' :=
        Except.ok.inj (hw.symm.trans (Token.parse_eq_ok_iff.mpr ht'))
      cases hws : parseTokens ws with
      | error e =>
        constructor
        · intro h
          cases h
        · intro h
          cases h with
          | cons _ hrest =>
            rw [ih.mpr hrest] at hws
            cases hws
      | ok rest =>
        simp only [Except.map, Except.ok.injEq]
        constructor
        · rintro rfl
          exact .cons ht (ih.mp hws)
        · intro h
          cases h with
          | cons ht' hrest =>
            obtain rfl := hunique ht'
            obtain rfl := Except.ok.inj (hws.symm.trans (ih.mpr hrest))
            rfl

/-- The first word at fault is reported. -/
theorem parseTokens_eq_error {before after : List (List Char)} {w : List Char} {cause : TokenError}
    (hbefore : ∀ v ∈ before, ∃ t : Token, t.SpelledBy v) (hw : Token.parse w = .error cause) :
    parseTokens (before ++ w :: after) = .error (.token (String.ofList w) cause) := by
  induction before with
  | nil => rw [List.nil_append, parseTokens, hw]
  | cons v before ih =>
    obtain ⟨⟨t, ht⟩, hrest⟩ := List.forall_mem_cons.mp hbefore
    rw [List.cons_append, parseTokens, Token.parse_eq_ok_iff.mpr ht, ih hrest]
    rfl

theorem parseTokens_append (ws vs : List (List Char)) : parseTokens (ws ++ vs) = do
    let sources ← parseTokens ws
    let targets ← parseTokens vs
    return sources ++ targets := by
  induction ws with
  | nil => cases hvs : parseTokens vs <;> simp [hvs, parseTokens, bind, Except.bind, pure, Except.pure]
  | cons w ws ih =>
    rw [List.cons_append, parseTokens, parseTokens, ih]
    cases Token.parse w with
    | error cause => rfl
    | ok t =>
      cases parseTokens ws with
      | error e => rfl
      | ok sources => cases parseTokens vs <;> rfl

theorem exists_parseTokens_eq_ok {ws : List (List Char)}
    (h : ∀ w ∈ ws, ∃ t : Token, t.SpelledBy w) : ∃ tokens, parseTokens ws = .ok tokens := by
  induction ws with
  | nil => exact ⟨[], rfl⟩
  | cons w ws ih =>
    obtain ⟨⟨t, ht⟩, hrest⟩ := List.forall_mem_cons.mp h
    obtain ⟨tokens, htokens⟩ := ih hrest
    exact ⟨t :: tokens, by rw [parseTokens, Token.parse_eq_ok_iff.mpr ht, htokens]; rfl⟩

theorem spelled_or_fault (ws : List (List Char)) : (∀ w ∈ ws, ∃ t : Token, t.SpelledBy w) ∨
    ∃ before w after cause, ws = before ++ w :: after ∧
      (∀ v ∈ before, ∃ t : Token, t.SpelledBy v) ∧ Token.parse w = .error cause := by
  induction ws with
  | nil => exact .inl (List.forall_mem_nil _)
  | cons w ws ih =>
    cases hw : Token.parse w with
    | error cause => exact .inr ⟨[], w, ws, cause, rfl, List.forall_mem_nil _, hw⟩
    | ok t =>
      have ht : ∃ t : Token, t.SpelledBy w := ⟨t, Token.parse_eq_ok_iff.mp hw⟩
      cases ih with
      | inl hws => exact .inl (List.forall_mem_cons.mpr ⟨ht, hws⟩)
      | inr hfault =>
        obtain ⟨before, v, after, cause, rfl, hbefore, hv⟩ := hfault
        exact .inr ⟨w :: before, v, after, cause, rfl, List.forall_mem_cons.mpr ⟨ht, hbefore⟩, hv⟩

/-! Lines. -/

namespace Statement

variable {line : List Char} {lefts rights : List (List Char)}

/-- A blank line, or a comment. -/
def IsSilent (line : List Char) : Prop := trim line = [] ∨ (trim line).head? = some '#'

instance (line : List Char) : Decidable (IsSilent line) := inferInstanceAs (Decidable (_ ∨ _))

/-- The line has one bar, and these are the words on its two sides. -/
def Sides (line : List Char) (lefts rights : List (List Char)) : Prop :=
  ∃ left right, line = left ++ '|' :: right ∧ '|' ∉ left ∧ '|' ∉ right ∧
    Runs left lefts ∧ Runs right rights

/-- What a line is read as, by its form. -/
inductive Reads (line : List Char) : Except LineError (Option Statement) → Prop
  | silent : IsSilent line → Reads line (.ok none)
  | missingSeparator : ¬IsSilent line → line.count '|' = 0 → Reads line (.error .missingSeparator)
  | extraSeparator : ¬IsSilent line → 2 ≤ line.count '|' → Reads line (.error .extraSeparator)
  | emptyRule : ¬IsSilent line → Sides line [] [] → Reads line (.error .emptyRule)
  | token {lefts rights before after : List (List Char)} {w : List Char} {cause : TokenError} :
      ¬IsSilent line → Sides line lefts rights → lefts ++ rights = before ++ w :: after →
        (∀ v ∈ before, ∃ t : Token, t.SpelledBy v) → Token.parse w = .error cause →
          Reads line (.error (.token (String.ofList w) cause))
  | statement {lefts rights : List (List Char)} {s : Statement} :
      ¬IsSilent line → Sides line lefts rights →
        List.Forall₂ (fun w t => t.SpelledBy w) lefts s.sources →
          List.Forall₂ (fun w t => t.SpelledBy w) rights s.targets → s.HasSides →
            Reads line (.ok (some s))

theorem sides_iff_cut : Sides line lefts rights ↔ ∃ left right,
    Text.cut '|' line = some (left, right) ∧ '|' ∉ right ∧ words left = lefts ∧
      words right = rights := by
  simp only [Sides, Text.runs_iff]
  constructor
  · rintro ⟨left, right, rfl, hleft, hright, hlefts, hrights⟩
    exact ⟨left, right, Text.cut_append hleft, hright, hlefts, hrights⟩
  · rintro ⟨left, right, hcut, hright, hlefts, hrights⟩
    obtain ⟨rfl, hleft⟩ := Text.cut_eq_some hcut
    exact ⟨left, right, rfl, hleft, hright, hlefts, hrights⟩

theorem count_of_cut {left right : List Char} (h : Text.cut '|' line = some (left, right)) :
    line.count '|' = right.count '|' + 1 := by
  obtain ⟨rfl, hleft⟩ := Text.cut_eq_some h
  rw [List.count_append, List.count_eq_zero.mpr hleft, List.count_cons_self, Nat.zero_add]

/-- The blanks around a line matter neither to its bars nor to its words. -/
theorem parse_eq (h : ¬IsSilent line) : Statement.parse line =
    match Text.cut '|' line with
    | none => .error .missingSeparator
    | some (left, right) =>
      if '|' ∈ right then .error .extraSeparator
      else do
        let sources ← parseTokens (words left)
        let targets ← parseTokens (words right)
        let statement ← ofSides sources targets
        return some statement := by
  obtain ⟨before, after, hline, hbefore, hafter⟩ := Text.exists_eq_append_trim line
  have hbar {gap : List Char} (hgap : ∀ c ∈ gap, isBlank c = true) : '|' ∉ gap := fun hmem => by
    have hblank := hgap '|' hmem
    cases hblank
  rw [IsSilent] at h
  rw [Statement.parse, if_neg h]
  cases hcut : Text.cut '|' (trim line) with
  | none =>
    have hnone : Text.cut '|' line = none := by
      rw [Text.cut_eq_none, hline, List.mem_append, List.mem_append, not_or, not_or]
      exact ⟨hbar hbefore, Text.cut_eq_none.mp hcut, hbar hafter⟩
    rw [hnone]
  | some sides =>
    obtain ⟨left, right⟩ := sides
    obtain ⟨htrim, hleft⟩ := Text.cut_eq_some hcut
    have hwhole : Text.cut '|' line = some (before ++ left, right ++ after) := by
      have hbefore' : '|' ∉ before ++ left := List.not_mem_append (hbar hbefore) hleft
      have hcut' : Text.cut '|' (before ++ left ++ '|' :: (right ++ after)) = _ :=
        Text.cut_append hbefore'
      rw [hline, htrim]
      simpa using hcut'
    have hright : '|' ∈ right ++ after ↔ '|' ∈ right := by simp [hbar hafter]
    simp only [hwhole, hright, Text.words_blank_append hbefore, Text.words_append_blank _ hafter]

theorem parse_of_sides (hsilent : ¬IsSilent line) (h : Sides line lefts rights) :
    Statement.parse line = do
      let sources ← parseTokens lefts
      let targets ← parseTokens rights
      let statement ← ofSides sources targets
      return some statement := by
  obtain ⟨left, right, hcut, hright, rfl, rfl⟩ := sides_iff_cut.mp h
  simp only [parse_eq hsilent, hcut, if_neg hright]

/-- A fault in a word of either side is that of the line. -/
theorem parse_of_sides_fault (hsilent : ¬IsSilent line) (h : Sides line lefts rights)
    {e : LineError} (herror : parseTokens (lefts ++ rights) = .error e) :
    Statement.parse line = .error e := by
  rw [parseTokens_append] at herror
  rw [parse_of_sides hsilent h]
  cases hlefts : parseTokens lefts with
  | error e' => simpa [hlefts, bind, Except.bind] using herror
  | ok sources =>
    cases hrights : parseTokens rights with
    | error e' => simpa [hlefts, hrights, bind, Except.bind] using herror
    | ok targets => simp [hlefts, hrights, bind, Except.bind, pure, Except.pure] at herror

theorem ofSides_eq_error_iff {sources targets : List Token} {e : LineError} :
    ofSides sources targets = .error e ↔ sources = [] ∧ targets = [] ∧ e = .emptyRule := by
  cases sources <;> cases targets <;> simp [ofSides, eq_comm]

theorem parse_of_reads {r : Except LineError (Option Statement)} (h : Reads line r) :
    Statement.parse line = r := by
  cases h with
  | silent hsilent => exact if_pos hsilent
  | missingSeparator hsilent hcount =>
    rw [parse_eq hsilent, Text.cut_eq_none.mpr (List.count_eq_zero.mp hcount)]
  | extraSeparator hsilent hcount =>
    cases hcut : Text.cut '|' line with
    | none =>
      rw [List.count_eq_zero.mpr (Text.cut_eq_none.mp hcut)] at hcount
      omega
    | some sides =>
      obtain ⟨left, right⟩ := sides
      rw [count_of_cut hcut] at hcount
      have hright : '|' ∈ right := List.count_pos_iff.mp (by omega)
      simp only [parse_eq hsilent, hcut, if_pos hright]
  | emptyRule hsilent hsides => exact parse_of_sides hsilent hsides
  | token hsilent hsides hwords hbefore hw =>
    exact parse_of_sides_fault hsilent hsides (hwords ▸ parseTokens_eq_error hbefore hw)
  | statement hsilent hsides hsources htargets hs =>
    rw [parse_of_sides hsilent hsides, parseTokens_eq_ok_iff.mpr hsources,
      parseTokens_eq_ok_iff.mpr htargets]
    simp [ofSides_of_hasSides hs, bind, Except.bind, pure, Except.pure]

/-- Where all words are tokens there is a statement, unless there are none. -/
theorem parse_of_spelled (hsilent : ¬IsSilent line) (h : Sides line lefts rights)
    (hspelled : ∀ w ∈ lefts ++ rights, ∃ t : Token, t.SpelledBy w) :
    (lefts = [] ∧ rights = [] ∧ Statement.parse line = .error .emptyRule) ∨
      ∃ s : Statement, List.Forall₂ (fun w t => t.SpelledBy w) lefts s.sources ∧
        List.Forall₂ (fun w t => t.SpelledBy w) rights s.targets ∧ s.HasSides ∧
          Statement.parse line = .ok (some s) := by
  obtain ⟨hlefts, hrights⟩ := List.forall_mem_append.mp hspelled
  obtain ⟨sources, hsources⟩ := exists_parseTokens_eq_ok hlefts
  obtain ⟨targets, htargets⟩ := exists_parseTokens_eq_ok hrights
  have hforms := parseTokens_eq_ok_iff.mp hsources
  have hforms' := parseTokens_eq_ok_iff.mp htargets
  rw [parse_of_sides hsilent h, hsources, htargets]
  simp only [bind, Except.bind, pure, Except.pure]
  cases hs : ofSides sources targets with
  | error e =>
    obtain ⟨rfl, rfl, rfl⟩ := ofSides_eq_error_iff.mp hs
    exact .inl ⟨List.forall₂_nil_right_iff.mp hforms, List.forall₂_nil_right_iff.mp hforms', rfl⟩
  | ok s =>
    obtain ⟨rfl, rfl, hsides⟩ := sides_of_ofSides hs
    exact .inr ⟨s, hforms, hforms', hsides, rfl⟩

theorem reads_parse (line : List Char) : Reads line (Statement.parse line) := by
  by_cases hsilent : IsSilent line
  · have hnone : Statement.parse line = .ok none := if_pos hsilent
    exact hnone ▸ .silent hsilent
  cases hcut : Text.cut '|' line with
  | none =>
    rw [parse_eq hsilent, hcut]
    exact .missingSeparator hsilent (List.count_eq_zero.mpr (Text.cut_eq_none.mp hcut))
  | some sides =>
    obtain ⟨left, right⟩ := sides
    by_cases hright : '|' ∈ right
    · have hcount : 2 ≤ line.count '|' := by
        have hpos := List.count_pos_iff.mpr hright
        rw [count_of_cut hcut]
        omega
      simpa only [parse_eq hsilent, hcut, if_pos hright] using .extraSeparator hsilent hcount
    have hsides : Sides line (words left) (words right) :=
      sides_iff_cut.mpr ⟨left, right, hcut, hright, rfl, rfl⟩
    obtain hspelled | ⟨before, w, after, cause, hwords, hbefore, hw⟩ :=
      spelled_or_fault (words left ++ words right)
    · obtain ⟨hlefts, hrights, hparse⟩ | ⟨s, hsources, htargets, hs, hparse⟩ :=
        parse_of_spelled hsilent hsides hspelled
      · rw [hlefts, hrights] at hsides
        exact hparse ▸ .emptyRule hsilent hsides
      · exact hparse ▸ .statement hsilent hsides hsources htargets hs
    · rw [parse_of_sides_fault hsilent hsides (hwords ▸ parseTokens_eq_error hbefore hw)]
      exact .token hsilent hsides hwords hbefore hw

theorem parse_eq_iff {r : Except LineError (Option Statement)} :
    Statement.parse line = r ↔ Reads line r :=
  ⟨fun h => h ▸ reads_parse line, parse_of_reads⟩

theorem parse_eq_none_iff : Statement.parse line = .ok none ↔ IsSilent line := by
  rw [parse_eq_iff]
  constructor
  · intro h
    cases h
    assumption
  · exact .silent

theorem exists_parse_eq_some_iff : (∃ s, Statement.parse line = .ok (some s)) ↔
    ¬IsSilent line ∧ ∃ lefts rights, Sides line lefts rights ∧ lefts ++ rights ≠ [] ∧
      ∀ w ∈ lefts ++ rights, ∃ t : Token, t.SpelledBy w := by
  constructor
  · rintro ⟨s, hs⟩
    cases parse_eq_iff.mp hs with
    | @statement lefts rights _ hsilent hsides =>
      refine ⟨hsilent, lefts, rights, hsides, fun hnil => ?_, ?_⟩
      · obtain ⟨rfl, rfl⟩ := List.append_eq_nil_iff.mp hnil
        cases hs.symm.trans (parse_of_sides hsilent hsides)
      · obtain hspelled | ⟨before, w, after, cause, hwords, hbefore, hw⟩ :=
          spelled_or_fault (lefts ++ rights)
        · exact hspelled
        · have herror := hwords ▸ parseTokens_eq_error hbefore hw
          cases hs.symm.trans (parse_of_sides_fault hsilent hsides herror)
  · rintro ⟨hsilent, lefts, rights, hsides, hne, hspelled⟩
    obtain ⟨rfl, rfl, -⟩ | ⟨s, -, -, -, hparse⟩ := parse_of_spelled hsilent hsides hspelled
    · exact absurd rfl hne
    · exact ⟨s, hparse⟩

/-- A line is read as its form calls for, and gives a statement exactly if it is no comment, has one
bar and at least one word, and all its words are tokens. -/
theorem parse_reads (line : List Char) : (∀ r, Statement.parse line = r ↔ Reads line r) ∧
    ((∃ s, Statement.parse line = .ok (some s)) ↔ ¬IsSilent line ∧
      ∃ lefts rights, Sides line lefts rights ∧ lefts ++ rights ≠ [] ∧
        ∀ w ∈ lefts ++ rights, ∃ t : Token, t.SpelledBy w) :=
  ⟨fun _ => parse_eq_iff, exists_parse_eq_some_iff⟩

/-- A second bar is reported whatever the words are. -/
example : Statement.parse "{ab | c} | d".toList = .error .extraSeparator := by decide +kernel

end Statement

end AttachmentGrammar
