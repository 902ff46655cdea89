import AttachmentGrammar.Text.Cut
/-!
Lines of a text: they end at a line feed, or at a carriage return and a line feed. A final line
break starts no further line, and a carriage return alone is part of its line. Main statement: a
line is a part between line feeds, perhaps without the carriage return at its end.
-/
namespace AttachmentGrammar.Text

def dropReturn (line : List Char) : List Char :=
  if line.getLast? = some '\r' then line.dropLast else line

def lines (s : List Char) : List (List Char) :=
  let parts := s.splitOn '\n'
  let ended := parts.dropLast.map dropReturn
  match parts.getLast? with
  | none | some [] => ended
  | some rest => ended ++ [rest]

theorem exists_part_of_mem_lines {s line : List Char} (h : line ∈ lines s) :
    ∃ part ∈ s.splitOn '\n', line = part ∨ line = dropReturn part := by
  have ended (h : line ∈ (s.splitOn '\n').dropLast.map dropReturn) :
      ∃ part ∈ s.splitOn '\n', line = part ∨ line = dropReturn part := by
    obtain ⟨part, hp, rfl⟩ := List.mem_map.mp h
    exact ⟨part, (List.dropLast_sublist _).subset hp, .inr rfl⟩
  cases hl : (s.splitOn '\n').getLast? with
  | none =>
    simp only [lines, hl] at h
    exact ended h
  | some rest =>
    have parts : line ∈ (s.splitOn '\n').dropLast.map dropReturn ∨ line = rest := by
      cases rest <;> simp only [lines, hl, List.mem_append, List.mem_singleton] at h <;> simp_all
    rcases parts with h | rfl
    · exact ended h
    · exact ⟨line, List.mem_of_getLast? hl, .inl rfl⟩

end AttachmentGrammar.Text
