import AttachmentGrammar.Text.Blank
import AttachmentGrammar.Text.Lines
import AttachmentGrammar.Text.Numeral
/-!
What is written and cut again. Main statements: the words of a text are its longest runs without
blanks, words joined by blanks are the words of the result, parts that each end with a line feed are
its lines, and trimming takes off the blanks at both ends.
-/
namespace AttachmentGrammar.Text

variable {s w : List Char} {c : Char}

theorem cut_append {before after : List Char} (h : c ∉ before) :
    cut c (before ++ c :: after) = some (before, after) := by
  induction before with
  | nil => simp [cut]
  | cons d before ih =>
    rw [List.mem_cons, not_or] at h
    simp [cut, Ne.symm h.1, ih h.2]

/-! Words. -/

structure IsWord (w : List Char) : Prop where
  ne_nil : w ≠ []
  not_blank : ∀ c ∈ w, isBlank c = false

theorem isWord_of_mem_words (h : w ∈ words s) : IsWord w :=
  ⟨ne_nil_of_mem_words h, isBlank_of_mem_words h⟩

theorem prefix_of_head?_splitOnP {α : Type} {p : α → Bool} {s first : List α}
    (h : (s.splitOnP p).head? = some first) : first <+: s := by
  induction s generalizing first with
  | nil =>
    obtain rfl : [] = first := Option.some.inj h
    exact List.nil_prefix
  | cons d rest ih =>
    rw [List.splitOnP_cons_eq_if_modifyHead] at h
    split at h
    · obtain rfl : [] = first := Option.some.inj h
      exact List.nil_prefix
    · obtain ⟨next, others, hs⟩ := List.exists_cons_of_ne_nil (List.splitOnP_ne_nil p rest)
      rw [hs, List.modifyHead_cons] at h
      obtain rfl : d :: next = first := Option.some.inj h
      exact List.cons_prefix_cons.mpr ⟨rfl, ih (by rw [hs]; rfl)⟩

/-- A part that is cut out stands in the text. -/
theorem infix_of_mem_splitOnP {α : Type} {p : α → Bool} {s part : List α}
    (h : part ∈ s.splitOnP p) : part <:+: s := by
  induction s generalizing part with
  | nil => simp_all [List.splitOnP_nil]
  | cons d rest ih =>
    have hlater (hrest : part ∈ rest.splitOnP p) : part <:+: d :: rest :=
      (ih hrest).trans (List.suffix_cons d rest).isInfix
    obtain ⟨first, others, hs⟩ :=
      List.exists_cons_of_ne_nil (List.splitOnP_ne_nil p (d :: rest))
    rw [hs] at h
    rcases List.mem_cons.mp h with rfl | h
    · exact (prefix_of_head?_splitOnP (by rw [hs]; rfl)).isInfix
    · rw [List.splitOnP_cons_eq_if_modifyHead] at hs
      split at hs
      · exact hlater ((List.cons.inj hs).2 ▸ h)
      · obtain ⟨next, others', hrest⟩ :=
          List.exists_cons_of_ne_nil (List.splitOnP_ne_nil p rest)
        rw [hrest, List.modifyHead_cons] at hs
        obtain rfl := (List.cons.inj hs).2
        exact hlater (hrest ▸ List.mem_cons_of_mem _ h)

theorem infix_of_mem_words (h : w ∈ words s) : w <:+: s :=
  infix_of_mem_splitOnP (List.mem_filter.mp h).1

theorem mem_of_mem_words (h : w ∈ words s) (hc : c ∈ w) : c ∈ s :=
  (infix_of_mem_words h).subset hc

theorem words_append_cons (s s' : List Char) (h : isBlank c = true) :
    words (s ++ c :: s') = words s ++ words s' := by
  rw [words, List.splitOnP_append_cons s s' h, List.filter_append, words, words]

theorem words_cons (s : List Char) (h : isBlank c = true) : words (c :: s) = words s :=
  words_append_cons [] s h

theorem words_concat (s : List Char) (h : isBlank c = true) : words (s ++ [c]) = words s :=
  (words_append_cons s [] h).trans (List.append_nil _)

theorem words_eq_singleton (h : IsWord w) : words w = [w] := by
  rw [words, List.splitOnP_eq_singleton h.not_blank]
  simp [h.ne_nil]

/-- The first word starts where a text that starts with no blank does. -/
theorem exists_words_cons (h : isBlank c = false) :
    ∃ first rest, words (c :: s) = (c :: first) :: rest := by
  obtain ⟨first, rest, hs⟩ := List.exists_cons_of_ne_nil (List.splitOnP_ne_nil isBlank s)
  refine ⟨first, rest.filter (· ≠ []), ?_⟩
  rw [words, List.splitOnP_cons_eq_if_modifyHead, h, hs]
  simp

theorem words_blank_append {gap : List Char} (h : ∀ c ∈ gap, isBlank c = true) (s : List Char) :
    words (gap ++ s) = words s := by
  induction gap with
  | nil => rfl
  | cons c gap ih =>
    obtain ⟨hc, hgap⟩ := List.forall_mem_cons.mp h
    rw [List.cons_append, words_cons _ hc, ih hgap]

theorem words_append_blank {gap : List Char} (s : List Char) (h : ∀ c ∈ gap, isBlank c = true) :
    words (s ++ gap) = words s := by
  cases gap with
  | nil => rw [List.append_nil]
  | cons c gap =>
    obtain ⟨hc, hgap⟩ := List.forall_mem_cons.mp h
    have hnone : words gap = [] := (List.append_nil gap ▸ words_blank_append hgap [] :)
    rw [words_append_cons _ _ hc, hnone, List.append_nil]

/-- The text is these words with blanks around them. No word can be longer where it stands. -/
inductive Runs : List Char → List (List Char) → Prop
  | blank {gap : List Char} : (∀ c ∈ gap, isBlank c = true) → Runs gap []
  | word {gap w rest : List Char} {ws : List (List Char)} : (∀ c ∈ gap, isBlank c = true) →
      IsWord w → (∀ c ∈ rest.head?, isBlank c = true) → Runs rest ws →
        Runs (gap ++ (w ++ rest)) (w :: ws)

theorem words_of_runs {ws : List (List Char)} (h : Runs s ws) : words s = ws := by
  induction h with
  | blank hgap => exact (List.append_nil _ ▸ words_blank_append hgap [] :)
  | @word gap w rest ws hgap hw hrest _ ih =>
    rw [words_blank_append hgap]
    cases rest with
    | nil =>
      obtain rfl : [] = ws := ih
      rw [List.append_nil, words_eq_singleton hw]
    | cons c rest =>
      have hc : isBlank c = true := hrest c rfl
      rw [words_append_cons _ _ hc, words_eq_singleton hw, ← words_cons rest hc, ih]
      rfl

theorem exists_runs (s : List Char) : ∃ ws, Runs s ws := by
  induction s with
  | nil => exact ⟨[], .blank nofun⟩
  | cons c s ih =>
    obtain ⟨ws, hws⟩ := ih
    cases hc : isBlank c with
    | true =>
      cases hws with
      | blank hgap => exact ⟨[], .blank (List.forall_mem_cons.mpr ⟨hc, hgap⟩)⟩
      | @word gap w rest ws hgap hw hrest hruns =>
        exact ⟨w :: ws, .word (List.forall_mem_cons.mpr ⟨hc, hgap⟩) hw hrest hruns⟩
    | false =>
      have hword {w : List Char} (hw : ∀ d ∈ w, isBlank d = false) : IsWord (c :: w) :=
        ⟨List.cons_ne_nil c w, List.forall_mem_cons.mpr ⟨hc, hw⟩⟩
      have hstart {w rest : List Char} {ws : List (List Char)} (hw : IsWord w)
          (hrest : ∀ d ∈ rest.head?, isBlank d = true) (hruns : Runs rest ws) :
          Runs (w ++ rest) (w :: ws) := .word (List.forall_mem_nil _) hw hrest hruns
      by_cases hhead : ∀ d ∈ s.head?, isBlank d = true
      · exact ⟨[c] :: ws, hstart (hword (List.forall_mem_nil _)) hhead hws⟩
      · -- the first word starts here and goes on with the one that starts `s`
        cases hws with
        | blank hgap => exact absurd (fun d hd => hgap d (List.mem_of_mem_head? hd)) hhead
        | @word gap w rest ws hgap hw hrest hruns =>
          cases gap with
          | nil => exact ⟨(c :: w) :: ws, hstart (hword hw.not_blank) hrest hruns⟩
          | cons d gap =>
            exact absurd (fun e he => Option.some.inj he ▸ hgap d List.mem_cons_self) hhead

theorem runs_iff {ws : List (List Char)} : Runs s ws ↔ words s = ws := by
  refine ⟨words_of_runs, ?_⟩
  rintro rfl
  obtain ⟨ws, hws⟩ := exists_runs s
  rwa [words_of_runs hws]

def spaced (ws : List (List Char)) : List Char := [' '].intercalate ws

theorem spaced_cons_cons (w w' : List Char) (ws : List (List Char)) :
    spaced (w :: w' :: ws) = w ++ ' ' :: spaced (w' :: ws) := by
  rw [spaced, List.intercalate_cons_cons, List.append_assoc, List.singleton_append, spaced]

theorem words_spaced {ws : List (List Char)} (h : ∀ w ∈ ws, IsWord w) : words (spaced ws) = ws := by
  induction ws with
  | nil => rfl
  | cons w ws ih =>
    obtain ⟨hw, hws⟩ := List.forall_mem_cons.mp h
    cases ws with
    | nil => simpa [spaced] using words_eq_singleton hw
    | cons w' ws =>
      rw [spaced_cons_cons, words_append_cons _ _ rfl, words_eq_singleton hw, ih hws]
      rfl

theorem head?_spaced {ws : List (List Char)} (hw : w ≠ []) : (spaced (w :: ws)).head? = w.head? := by
  obtain ⟨c, rest, rfl⟩ := List.exists_cons_of_ne_nil hw
  cases ws with
  | nil => simp [spaced]
  | cons w' ws =>
    rw [spaced_cons_cons]
    rfl

theorem getLast?_spaced {ws : List (List Char)} (h : ∀ w ∈ ws, IsWord w) :
    ∀ c ∈ (spaced ws).getLast?, isBlank c = false := by
  induction ws with
  | nil => nofun
  | cons w ws ih =>
    obtain ⟨hw, hws⟩ := List.forall_mem_cons.mp h
    cases ws with
    | nil =>
      intro c hc
      have hc : c ∈ w.getLast? := by simpa [spaced] using hc
      exact hw.not_blank c (List.mem_of_getLast? hc)
    | cons w' ws =>
      have hne : spaced (w' :: ws) ≠ [] := by
        intro hnil
        have hwords := words_spaced hws
        rw [hnil] at hwords
        cases hwords
      have hlast : (w ++ ' ' :: spaced (w' :: ws)).getLast? = (spaced (w' :: ws)).getLast? := by
        rw [List.getLast?_append, List.getLast?_cons, List.getLast?_eq_some_getLast hne]
        rfl
      rw [spaced_cons_cons, hlast]
      exact ih hws

theorem mem_spaced {ws : List (List Char)} (h : c ∈ spaced ws) : c = ' ' ∨ ∃ w ∈ ws, c ∈ w := by
  induction ws with
  | nil => cases h
  | cons w ws ih =>
    cases ws with
    | nil => exact .inr ⟨w, List.mem_cons_self, by simpa [spaced] using h⟩
    | cons w' ws =>
      rw [spaced_cons_cons, List.mem_append, List.mem_cons] at h
      rcases h with h | h | h
      · exact .inr ⟨w, List.mem_cons_self, h⟩
      · exact .inl h
      · refine (ih h).imp_right fun hw => ?_
        obtain ⟨w, hw, hc⟩ := hw
        exact ⟨w, List.mem_cons_of_mem _ hw, hc⟩

/-! Trimming. -/

theorem trimStart_eq_self (h : ∀ c ∈ s.head?, isBlank c = false) : trimStart s = s := by
  cases s with
  | nil => rfl
  | cons c rest =>
    have hc : ¬isBlank c = true := Bool.eq_false_iff.mp (h c rfl)
    exact List.dropWhile_cons_of_neg hc

theorem trim_eq_self (hhead : ∀ c ∈ s.head?, isBlank c = false)
    (hlast : ∀ c ∈ s.getLast?, isBlank c = false) : trim s = s := by
  rw [← List.head?_reverse] at hlast
  rw [trim, trimStart_eq_self hhead, trimStart_eq_self hlast, List.reverse_reverse]

theorem isBlank_head?_trimStart : ∀ c ∈ (trimStart s).head?, isBlank c = false := by
  intro c hc
  have hhead := List.head?_dropWhile_not isBlank s
  rw [trimStart] at hc
  rw [hc] at hhead
  exact hhead

theorem isBlank_head?_trim : ∀ c ∈ (trim s).head?, isBlank c = false := by
  intro c hc
  -- trimming at the end leaves a prefix
  have hprefix : trim s <+: trimStart s := by
    have hsuffix : trimStart (trimStart s).reverse <:+ (trimStart s).reverse :=
      List.dropWhile_suffix _
    rw [trim, ← List.reverse_suffix, List.reverse_reverse]
    exact hsuffix
  obtain ⟨rest, hrest⟩ := hprefix
  apply isBlank_head?_trimStart (s := s)
  rw [← hrest, List.head?_append, Option.mem_def.mp hc]
  rfl

theorem isBlank_getLast?_trim : ∀ c ∈ (trim s).getLast?, isBlank c = false := by
  rw [trim, List.getLast?_reverse]
  exact isBlank_head?_trimStart

theorem trim_trim (s : List Char) : trim (trim s) = trim s :=
  trim_eq_self isBlank_head?_trim isBlank_getLast?_trim

theorem trim_blank_append {gap : List Char} (h : ∀ c ∈ gap, isBlank c = true) (s : List Char) :
    trim (gap ++ s) = trim s := by
  have hstart : trimStart (gap ++ s) = trimStart s := List.dropWhile_append_of_pos h
  rw [trim, hstart, trim]

theorem trimStart_eq (s : List Char) :
    ∃ before, s = before ++ trimStart s ∧ ∀ c ∈ before, isBlank c = true :=
  ⟨s.takeWhile isBlank, List.takeWhile_append_dropWhile.symm, List.all_eq_true.mp List.all_takeWhile⟩

/-- Trimming takes blanks off both ends. -/
theorem exists_eq_append_trim (s : List Char) : ∃ before after, s = before ++ (trim s ++ after) ∧
    (∀ c ∈ before, isBlank c = true) ∧ ∀ c ∈ after, isBlank c = true := by
  obtain ⟨before, hbefore, hblank⟩ := trimStart_eq s
  obtain ⟨after, hafter, hblank'⟩ := trimStart_eq (trimStart s).reverse
  refine ⟨before, after.reverse, ?_, hblank, fun c hc => hblank' c (List.mem_reverse.mp hc)⟩
  have hstart : trimStart s = trim s ++ after.reverse := by
    rw [trim, ← List.reverse_append, ← hafter, List.reverse_reverse]
  rw [← hstart, ← hbefore]

theorem infix_trim (s : List Char) : trim s <:+: s := by
  obtain ⟨before, after, heq, -, -⟩ := exists_eq_append_trim s
  exact ⟨before, after, by rw [List.append_assoc, ← heq]⟩

theorem IsWord.trim_eq (h : IsWord w) : trim w = w :=
  trim_eq_self (fun c hc => h.not_blank c (List.mem_of_mem_head? hc))
    fun c hc => h.not_blank c (List.mem_of_getLast? hc)

/-! Lines. -/

theorem prefix_dropReturn (line : List Char) : dropReturn line <+: line := by
  rw [dropReturn]
  split
  · exact List.dropLast_prefix line
  · exact List.prefix_rfl

theorem infix_of_mem_lines (h : w ∈ lines s) : w <:+: s := by
  obtain ⟨part, hpart, hline⟩ := exists_part_of_mem_lines h
  rw [List.splitOn_eq_splitOnP] at hpart
  rcases hline with rfl | rfl
  · exact infix_of_mem_splitOnP hpart
  · exact (prefix_dropReturn part).isInfix.trans (infix_of_mem_splitOnP hpart)

theorem splitOn_flatMap {parts : List (List Char)} (h : ∀ part ∈ parts, '\n' ∉ part) :
    (parts.flatMap (· ++ ['\n'])).splitOn '\n' = parts ++ [[]] := by
  induction parts with
  | nil => rfl
  | cons part parts ih =>
    obtain ⟨hpart, hparts⟩ := List.forall_mem_cons.mp h
    rw [List.flatMap_cons, List.append_assoc, List.singleton_append,
      List.splitOn_append_cons_self_of_not_mem hpart, ih hparts, List.cons_append]

theorem lines_flatMap {parts : List (List Char)} (h : ∀ part ∈ parts, '\n' ∉ part)
    (hreturn : ∀ part ∈ parts, part.getLast? ≠ some '\r') :
    lines (parts.flatMap (· ++ ['\n'])) = parts := by
  have hdrop : parts.map dropReturn = parts := by
    have hpart : ∀ part ∈ parts, dropReturn part = id part := fun part hpart =>
      if_neg (hreturn part hpart)
    rw [List.map_congr_left hpart, List.map_id]
  rw [lines, splitOn_flatMap h]
  simp [hdrop]

/-! Numerals. -/

theorem isDigit_of_mem_decimal {n : Nat} (h : c ∈ decimal n) : c.isDigit = true :=
  Nat.isDigit_of_mem_toDigits (by decide) (by decide) h

theorem not_mem_decimal {n : Nat} (h : c.isDigit = false) : c ∉ decimal n := fun hc => by
  rw [isDigit_of_mem_decimal hc] at h
  cases h

theorem isBlank_of_isDigit (h : c.isDigit = true) : isBlank c = false := by
  have hrange : 48 ≤ c.toNat ∧ c.toNat ≤ 57 := by
    simpa [Char.isDigit, UInt32.le_iff_toNat_le] using h
  simp only [isBlank, blankRanges, List.any_cons, List.any_nil, Bool.or_false, Bool.or_eq_false_iff,
    Bool.and_eq_false_iff, decide_eq_false_iff_not]
  omega

theorem decimal_ne_nil {n : Nat} : decimal n ≠ [] := Nat.toDigits_ne_nil

theorem readWord_decimal (n : UInt32) : readWord (decimal n.toNat) = some n := by
  have hplus : dropPlus (decimal n.toNat) = decimal n.toNat := by
    rw [dropPlus]
    intro digits hdigits
    have hmem : '+' ∈ decimal n.toNat := hdigits ▸ List.mem_cons_self
    exact not_mem_decimal rfl hmem
  rw [readWord, hplus, readDecimal_decimal]
  simp [UInt32.toNat_lt_size]

end AttachmentGrammar.Text
