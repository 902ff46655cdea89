/-!
Cutting a text at the first place where a character or a piece stands. Main statements: the two
parts of a cut, with the character between them, are the text; a text cut everywhere leaves parts
without what it was cut at.
-/
namespace AttachmentGrammar.Text

variable {α : Type}

theorem eq_false_of_mem_splitOnP {p : α → Bool} {s part : List α} (h : part ∈ s.splitOnP p) :
    ∀ c ∈ part, p c = false := by
  induction s generalizing part with
  | nil => simp_all [List.splitOnP_nil]
  | cons d rest ih =>
    rw [List.splitOnP_cons_eq_if_modifyHead] at h
    split at h
    · rcases List.mem_cons.mp h with rfl | h
      · simp
      · exact ih h
    · rename_i hd
      obtain ⟨first, others, hs⟩ := List.exists_cons_of_ne_nil (List.splitOnP_ne_nil p rest)
      rw [hs, List.modifyHead_cons] at h
      rcases List.mem_cons.mp h with rfl | h
      · intro c hc
        rcases List.mem_cons.mp hc with rfl | hc
        · simpa using hd
        · exact ih (hs ▸ List.mem_cons_self) c hc
      · exact ih (hs ▸ List.mem_cons_of_mem _ h)

variable [DecidableEq α]

def cut (c : α) : List α → Option (List α × List α)
  | [] => none
  | d :: rest =>
    if d = c then some ([], rest)
    else (cut c rest).map fun (before, after) => (d :: before, after)

theorem cut_eq_some {c : α} {s before after : List α} (h : cut c s = some (before, after)) :
    s = before ++ c :: after ∧ c ∉ before := by
  induction s generalizing before with
  | nil => simp [cut] at h
  | cons d rest ih =>
    simp only [cut] at h
    split at h
    · rename_i hd
      simp only [Option.some.injEq, Prod.mk.injEq] at h
      obtain ⟨rfl, rfl⟩ := h
      simp [hd]
    · rename_i hd
      obtain ⟨⟨b, a⟩, hba, he⟩ := Option.map_eq_some_iff.mp h
      simp only [Prod.mk.injEq] at he
      obtain ⟨rfl, rfl⟩ := he
      obtain ⟨rfl, hn⟩ := ih hba
      simp [hn, Ne.symm hd]

theorem cut_eq_none {c : α} {s : List α} : cut c s = none ↔ c ∉ s := by
  induction s with
  | nil => simp [cut]
  | cons d rest ih =>
    simp only [cut]
    split
    · rename_i hd
      simp [hd]
    · rename_i hd
      simp [ih, Ne.symm hd]

theorem not_mem_of_mem_splitOn {c : α} {s part : List α} (h : part ∈ s.splitOn c) : c ∉ part := by
  intro hc
  rw [List.splitOn_eq_splitOnP] at h
  simpa using eq_false_of_mem_splitOnP h c hc

/-- What follows the first place where `piece` stands. -/
def afterFirst (piece : List Char) : List Char → Option (List Char)
  | [] => if piece = [] then some [] else none
  | c :: rest =>
    if piece.isPrefixOf (c :: rest) then some ((c :: rest).drop piece.length)
    else afterFirst piece rest

/-- Cuts a text at the last place where `piece` stands. -/
def cutAtLast (piece : List Char) : List Char → Option (List Char × List Char)
  | [] => none
  | c :: rest =>
    match cutAtLast piece rest with
    | some (before, after) => some (c :: before, after)
    | none =>
      if piece.isPrefixOf (c :: rest) then some ([], (c :: rest).drop piece.length) else none

end AttachmentGrammar.Text
