import AttachmentGrammar.Proofs.Text
/-!
Lines of texts put together. Main statements: behind a line feed the lines go on as those of a text
of their own, and a carriage return before every line feed leaves each trimmed line as it was.
-/
namespace AttachmentGrammar.Text

variable {s t line : List Char}

theorem splitOn_append_break (s t : List Char) :
    (s ++ '\n' :: t).splitOn '\n' = s.splitOn '\n' ++ t.splitOn '\n' := by
  rw [List.splitOn_eq_splitOnP, List.splitOn_eq_splitOnP, List.splitOn_eq_splitOnP]
  exact List.splitOnP_append_cons s t (BEq.refl '\n')

theorem lines_append_break (s t : List Char) :
    lines (s ++ '\n' :: t) = (s.splitOn '\n').map dropReturn ++ lines t := by
  have hne : t.splitOn '\n' ≠ [] := List.splitOn_ne_nil '\n' t
  have hlast : (s.splitOn '\n' ++ t.splitOn '\n').getLast? = (t.splitOn '\n').getLast? := by
    rw [List.getLast?_append, List.getLast?_eq_some_getLast hne]
    rfl
  have hbefore : (s.splitOn '\n' ++ t.splitOn '\n').dropLast =
      s.splitOn '\n' ++ (t.splitOn '\n').dropLast := List.dropLast_append_of_ne_nil hne
  simp only [lines, splitOn_append_break, hlast, hbefore, List.map_append]
  split <;> simp

/-- The line up to the first line feed, and the lines after it. -/
theorem lines_line_append (h : '\n' ∉ line) (s : List Char) :
    lines (line ++ '\n' :: s) = dropReturn line :: lines s := by
  rw [lines_append_break, List.splitOn_eq_singleton h, List.map_singleton, List.singleton_append]

theorem length_splitOn (c : Char) (s : List Char) : (s.splitOn c).length = s.count c + 1 := by
  induction s with
  | nil => rfl
  | cons d s ih =>
    rw [List.splitOn_eq_splitOnP] at ih ⊢
    rw [List.splitOnP_cons_eq_if_modifyHead, List.count_cons]
    split
    · simp_all
    · simp_all

/-- A text that is empty, or ends with a line feed. -/
def EndsLine (s : List Char) : Prop := s = [] ∨ s.getLast? = some '\n'

instance (s : List Char) : Decidable (EndsLine s) := inferInstanceAs (Decidable (_ ∨ _))

theorem lines_append (h : EndsLine s) (t : List Char) : lines (s ++ t) = lines s ++ lines t := by
  obtain rfl | ⟨before, rfl⟩ := h.imp_right List.getLast?_eq_some_iff.mp
  · rfl
  · rw [List.append_assoc, List.singleton_append, lines_append_break, lines_append_break]
    simp [lines]

theorem length_lines (h : EndsLine s) : (lines s).length = s.count '\n' := by
  obtain rfl | ⟨before, rfl⟩ := h.imp_right List.getLast?_eq_some_iff.mp
  · rfl
  · rw [lines_append_break]
    simp [lines, length_splitOn]

/-! Carriage returns. -/

theorem trim_append_blank {gap : List Char} (h : ∀ c ∈ gap, isBlank c = true) (s : List Char) :
    trim (s ++ gap) = trim s := by
  have hgap : gap.dropWhile isBlank = [] := by
    rw [← List.append_nil gap, List.dropWhile_append_of_pos h, List.dropWhile_nil]
  have hstart : trimStart (s ++ gap) =
      if (trimStart s).isEmpty then [] else trimStart s ++ gap := by
    rw [trimStart, List.dropWhile_append, hgap]
    rfl
  rw [trim, hstart, trim]
  split
  · rename_i hnil
    rw [List.isEmpty_iff.mp hnil]
  · have hreverse : ∀ c ∈ gap.reverse, isBlank c = true := fun c hc => h c (List.mem_reverse.mp hc)
    rw [List.reverse_append]
    exact congrArg List.reverse (List.dropWhile_append_of_pos hreverse)

theorem trim_concat {c : Char} (h : isBlank c = true) (s : List Char) : trim (s ++ [c]) = trim s :=
  trim_append_blank (List.forall_mem_singleton.mpr h) s

theorem trim_dropReturn (line : List Char) : trim (dropReturn line) = trim line := by
  rw [dropReturn]
  split
  · rename_i hlast
    obtain ⟨before, rfl⟩ := List.getLast?_eq_some_iff.mp hlast
    rw [List.dropLast_concat, trim_concat rfl]
  · rfl

/-- Every line feed with a carriage return before it. -/
def withReturns (s : List Char) : List Char :=
  s.flatMap fun c => if c = '\n' then ['\r', '\n'] else [c]

theorem withReturns_eq_self (h : '\n' ∉ s) : withReturns s = s := by
  induction s with
  | nil => rfl
  | cons c s ih =>
    rw [List.mem_cons, not_or] at h
    have hs : withReturns s = s := ih h.2
    rw [withReturns] at hs ⊢
    simp [hs, Ne.symm h.1]

theorem withReturns_line_append (h : '\n' ∉ line) (s : List Char) :
    withReturns (line ++ '\n' :: s) = (line ++ ['\r']) ++ '\n' :: withReturns s := by
  rw [withReturns, List.flatMap_append, ← withReturns, withReturns_eq_self h]
  simp [withReturns]

theorem map_trim_lines_withReturns (s : List Char) :
    (lines (withReturns s)).map trim = (lines s).map trim := by
  -- line by line, on the length of what is left
  induction hn : s.length using Nat.strongRecOn generalizing s with
  | ind n ih =>
    by_cases hbreak : '\n' ∈ s
    · obtain ⟨line, rest, rfl, hline⟩ := List.eq_append_cons_of_mem hbreak
      have hreturn : '\n' ∉ line ++ ['\r'] := List.not_mem_append hline (by decide)
      have hrest : (lines (withReturns rest)).map trim = (lines rest).map trim := by
        refine ih rest.length ?_ rest rfl
        rw [← hn, List.length_append, List.length_cons]
        omega
      rw [withReturns_line_append hline, lines_line_append hreturn, lines_line_append hline,
        List.map_cons, List.map_cons, trim_dropReturn, trim_dropReturn, trim_concat rfl, hrest]
    · rw [withReturns_eq_self hbreak]

end AttachmentGrammar.Text
