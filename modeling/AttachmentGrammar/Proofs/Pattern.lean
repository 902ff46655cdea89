import AttachmentGrammar.Proofs.Vocabulary
/-!
What a pattern means. Main statement: a pattern covers exactly the names that are its pieces with
some text in place of each star, and it expands to the numbers of these names in increasing order.
-/
namespace AttachmentGrammar

/-! The first place of a piece. -/

namespace Text

variable {piece s rest : List Char}

theorem afterFirst_of_prefix (h : piece <+: s) : afterFirst piece s = some (s.drop piece.length) := by
  cases s with
  | nil =>
    obtain rfl := List.prefix_nil.mp h
    rfl
  | cons c s => rw [afterFirst, if_pos (List.isPrefixOf_iff_prefix.mpr h)]

theorem exists_gap_of_afterFirst (h : afterFirst piece s = some rest) :
    ∃ gap, s = gap ++ piece ++ rest := by
  induction s with
  | nil =>
    rw [afterFirst] at h
    split at h
    · rename_i hpiece
      obtain rfl := Option.some.inj h
      exact ⟨[], by simp [hpiece]⟩
    · cases h
  | cons c s ih =>
    rw [afterFirst] at h
    split at h
    · rename_i hprefix
      obtain rfl := Option.some.inj h
      refine ⟨[], ?_⟩
      rw [List.nil_append]
      exact List.prefix_iff_eq_append.mp (List.isPrefixOf_iff_prefix.mp hprefix) |>.symm
    · obtain ⟨gap, rfl⟩ := ih h
      exact ⟨c :: gap, rfl⟩

/-- Where the piece stands it is found, there or earlier, so no less of the text is left. -/
theorem exists_afterFirst (gap piece rest : List Char) :
    ∃ left, afterFirst piece (gap ++ piece ++ rest) = some left ∧ rest <:+ left := by
  induction gap with
  | nil =>
    have hfound : afterFirst piece (piece ++ rest) = some ((piece ++ rest).drop piece.length) :=
      afterFirst_of_prefix (List.prefix_append piece rest)
    rw [List.drop_left] at hfound
    exact ⟨rest, hfound, List.suffix_refl rest⟩
  | cons c gap ih =>
    by_cases hprefix : piece <+: c :: gap ++ piece ++ rest
    · refine ⟨_, afterFirst_of_prefix hprefix, ?_⟩
      -- both are ends of the whole text, and `rest` is the shorter one
      refine List.suffix_of_suffix_length_le (List.suffix_append _ _) (List.drop_suffix _ _) ?_
      simp only [List.length_drop, List.length_append, List.length_cons]
      omega
    · rw [List.cons_append, List.cons_append] at hprefix ⊢
      rw [afterFirst, if_neg (mt List.isPrefixOf_iff_prefix.mp hprefix)]
      exact ih

end Text

namespace Pattern

variable {first last piece s s' rest : List Char} {pieces : List (List Char)}

/-- The pieces in order, each after its gap. -/
def fill (gaps pieces : List (List Char)) : List Char := (List.zipWith (· ++ ·) gaps pieces).flatten

/-- The name has, for the stars of the pattern, some text before each piece but the first. A pattern
without a star has one piece, and the name is that. -/
def Denotes (p : Pattern) (name : String) : Prop :=
  ∃ first rest, p.text.toList.splitOn wildcard = first :: rest ∧
    (rest = [] ∧ name = p.text ∨
      rest ≠ [] ∧ ∃ gaps, gaps.length = rest.length ∧ name.toList = first ++ fill gaps rest)

/-! Pieces found one after the other. -/

/-- The pieces stand in the text in order without overlap, and `rest` is what follows the last. -/
def Leaves (pieces : List (List Char)) (s rest : List Char) : Prop :=
  ∃ gaps, gaps.length = pieces.length ∧ s = fill gaps pieces ++ rest

theorem leaves_nil : Leaves [] s rest ↔ s = rest := by
  constructor
  · rintro ⟨gaps, -, rfl⟩
    simp [fill]
  · rintro rfl
    exact ⟨[], rfl, rfl⟩

theorem leaves_cons : Leaves (piece :: pieces) s rest ↔
    ∃ gap later, s = gap ++ piece ++ later ∧ Leaves pieces later rest := by
  constructor
  · rintro ⟨gaps, hlength, rfl⟩
    cases gaps with
    | nil => cases hlength
    | cons gap gaps =>
      refine ⟨gap, fill gaps pieces ++ rest, ?_, gaps, Nat.succ.inj hlength, rfl⟩
      simp [fill]
  · rintro ⟨gap, later, rfl, gaps, hlength, rfl⟩
    exact ⟨gap :: gaps, congrArg Nat.succ hlength, by simp [fill]⟩

theorem leaves_concat : Leaves (pieces ++ [last]) s [] ↔
    ∃ rest, Leaves pieces s rest ∧ last <:+ rest := by
  induction pieces generalizing s with
  | nil =>
    simp only [List.nil_append, leaves_cons, leaves_nil, exists_eq_left', exists_eq_right,
      List.append_nil]
    exact exists_congr fun gap => eq_comm
  | cons piece pieces ih =>
    simp only [List.cons_append, leaves_cons, ih]
    constructor
    · rintro ⟨gap, later, rfl, rest, hrest, hlast⟩
      exact ⟨rest, ⟨gap, later, rfl, hrest⟩, hlast⟩
    · rintro ⟨rest, ⟨gap, later, rfl, hrest⟩, hlast⟩
      exact ⟨gap, later, rfl, rest, hrest, hlast⟩

theorem leaves_of_skipPieces (h : skipPieces pieces s = some rest) : Leaves pieces s rest := by
  induction pieces generalizing s with
  | nil => exact leaves_nil.mpr (Option.some.inj h)
  | cons piece pieces ih =>
    obtain ⟨later, hlater, hrest⟩ := Option.bind_eq_some_iff.mp h
    obtain ⟨gap, hgap⟩ := Text.exists_gap_of_afterFirst hlater
    exact leaves_cons.mpr ⟨gap, later, hgap, ih hrest⟩

/-- Taking every piece as early as it goes leaves the most for the pieces after it: wherever else
the pieces stand, in the text or in an end of it, the rest is an end of what is left. -/
theorem exists_skipPieces (h : Leaves pieces s rest) (hs : s <:+ s') :
    ∃ left, skipPieces pieces s' = some left ∧ rest <:+ left := by
  induction pieces generalizing s s' with
  | nil =>
    obtain rfl := leaves_nil.mp h
    exact ⟨s', rfl, hs⟩
  | cons piece pieces ih =>
    obtain ⟨gap, later, rfl, hrest⟩ := leaves_cons.mp h
    obtain ⟨before, rfl⟩ := hs
    obtain ⟨found, hfound, hlater⟩ := Text.exists_afterFirst (before ++ gap) piece later
    obtain ⟨left, hleft, hsuffix⟩ := ih hrest hlater
    refine ⟨left, ?_, hsuffix⟩
    rw [← List.append_assoc, ← List.append_assoc, skipPieces, hfound]
    exact hleft

theorem fits_concat : fits (first :: (pieces ++ [last])) s = true ↔
    ∃ later, s = first ++ later ∧ ∃ rest, skipPieces pieces later = some rest ∧ last <:+ rest := by
  have hunfold : fits (first :: (pieces ++ [last])) s =
      (first.isPrefixOf s && (skipPieces pieces (s.drop first.length)).any last.isSuffixOf) := by
    rw [fits, List.dropLast_concat, List.getLastD_concat]
    · cases skipPieces pieces (s.drop first.length) <;> rfl
    · simp
  rw [hunfold, Bool.and_eq_true, List.isPrefixOf_iff_prefix, Option.any_eq_true]
  constructor
  · rintro ⟨⟨later, rfl⟩, rest, hrest, hlast⟩
    rw [List.drop_left] at hrest
    exact ⟨later, rfl, rest, hrest, List.isSuffixOf_iff_suffix.mp hlast⟩
  · rintro ⟨later, rfl, rest, hrest, hlast⟩
    rw [List.drop_left]
    exact ⟨List.prefix_append _ _, rest, hrest, List.isSuffixOf_iff_suffix.mpr hlast⟩

theorem fits_iff (hrest : pieces ≠ []) : fits (first :: pieces) s = true ↔
    ∃ gaps, gaps.length = pieces.length ∧ s = first ++ fill gaps pieces := by
  obtain ⟨middle, last, rfl⟩ := (List.eq_nil_or_concat pieces).resolve_left hrest
  have hleaves (later : List Char) : (∃ rest, skipPieces middle later = some rest ∧ last <:+ rest) ↔
      Leaves (middle ++ [last]) later [] := by
    rw [leaves_concat]
    constructor
    · rintro ⟨rest, hskip, hlast⟩
      exact ⟨rest, leaves_of_skipPieces hskip, hlast⟩
    · rintro ⟨rest, hleaves, hlast⟩
      obtain ⟨left, hleft, hsuffix⟩ := exists_skipPieces hleaves (List.suffix_refl _)
      exact ⟨left, hleft, hlast.trans hsuffix⟩
  rw [List.concat_eq_append, fits_concat]
  simp only [hleaves, Leaves, List.append_nil]
  constructor
  · rintro ⟨_, rfl, gaps, hlength, rfl⟩
    exact ⟨gaps, hlength, rfl⟩
  · rintro ⟨gaps, hlength, rfl⟩
    exact ⟨_, rfl, gaps, hlength, rfl⟩

theorem covers_iff_denotes {p : Pattern} {name : String} : p.covers name = true ↔ p.Denotes name := by
  obtain ⟨first, rest, hsplit⟩ :=
    List.exists_cons_of_ne_nil (List.splitOn_ne_nil wildcard p.text.toList)
  have hdenotes : p.Denotes name ↔ rest = [] ∧ name = p.text ∨
      rest ≠ [] ∧ ∃ gaps, gaps.length = rest.length ∧ name.toList = first ++ fill gaps rest := by
    simp only [Denotes, hsplit, List.cons.injEq]
    constructor
    · rintro ⟨_, _, ⟨rfl, rfl⟩, h⟩
      exact h
    · exact fun h => ⟨first, rest, ⟨rfl, rfl⟩, h⟩
  rw [covers, hsplit, hdenotes]
  by_cases hrest : rest = []
  · have htext : p.text.toList = first := by
      have hjoin : [wildcard].intercalate (p.text.toList.splitOn wildcard) = p.text.toList :=
        List.intercalate_splitOn wildcard
      rw [← hjoin, hsplit, hrest]
      simp
    simp [hrest, fits, ← htext, String.toList_inj, eq_comm]
  · simp [hrest, fits_iff hrest]

end Pattern

/-- A pattern covers what it denotes, read as text with its stars filled in, and expands to exactly
the numbers of the names that it covers, each once and in order. -/
theorem Vocabulary.expand_denotes :
    (∀ (p : Pattern) (name : String), p.covers name = true ↔ p.Denotes name) ∧
      ∀ (v : Vocabulary) (p : Pattern), (v.expand p).Pairwise (· < ·) ∧
        ∀ id, id ∈ v.expand p ↔ ∃ name, v.name? id = some name ∧ p.covers name = true :=
  ⟨fun _ _ => Pattern.covers_iff_denotes, fun _ _ => ⟨increasing_expand, fun _ => mem_expand⟩⟩

end AttachmentGrammar
