import AttachmentGrammar.Relation
/-!
The table of marks as a set of pairs. Main statements: marking pairs whose numbers lie in the table
adds these pairs and no others; the order in which pairs are marked does not matter, not even to the
count of marks; and the row and the column of a class are found in the table, with a mark exactly if
a pair with that class is in the set.
-/
namespace AttachmentGrammar.Relation

variable {r : Relation} {a b s t : ClassId}

def insertPair (r : Relation) (pair : ClassId × ClassId) : Relation := r.insert pair.1 pair.2

theorem place_lt_size (ha : a < r.size) (hb : b < r.size) : r.place a b < r.cells.size :=
  calc a * r.size + b
    _ < a * r.size + r.size := Nat.add_lt_add_left hb _
    _ = (a + 1) * r.size := (Nat.succ_mul a r.size).symm
    _ ≤ r.size * r.size := Nat.mul_le_mul_right r.size ha
    _ = r.cells.size := r.size_cells.symm

theorem place_div (hb : b < r.size) : r.place a b / r.size = a := by
  rw [place, Nat.add_comm, Nat.add_mul_div_right _ _ (Nat.zero_lt_of_lt hb), Nat.div_eq_of_lt hb,
    Nat.zero_add]

theorem place_mod (hb : b < r.size) : r.place a b % r.size = b := by
  rw [place, Nat.add_comm, Nat.add_mul_mod_self_right, Nat.mod_eq_of_lt hb]

theorem place_inj (hb : b < r.size) (ht : t < r.size) :
    r.place a b = r.place s t ↔ a = s ∧ b = t := by
  refine ⟨fun h => ⟨?_, ?_⟩, fun h => by rw [h.1, h.2]⟩
  · rw [← place_div hb (a := a), h, place_div ht]
  · rw [← place_mod hb (a := a), h, place_mod ht]

theorem contains_iff : r.contains a b = true ↔
    a < r.size ∧ b < r.size ∧ r.cell? (r.place a b) = some true := by
  simp [contains, and_assoc]

@[simp] theorem contains_empty (n : Nat) : (empty n).contains a b = false := by
  simp [contains, cell?, empty, Array.getElem?_replicate]

/-- Marking a pair sets its cell and leaves every other cell alone. -/
theorem cell?_insert (hs : s < r.size) (ht : t < r.size) (i : Nat) :
    (r.insert s t).cell? i = if i = r.place s t then some true else r.cell? i := by
  have hlt := place_lt_size hs ht
  have hcell : r.cell? (r.place s t) = some r.cells[r.place s t] := Array.getElem?_eq_getElem hlt
  cases hold : r.cells[r.place s t] with
  | true =>
    rw [hold] at hcell
    have hsame : r.insert s t = r := by simp [insert, insert?, hcell]
    rw [hsame]
    by_cases hi : i = r.place s t
    · rw [if_pos hi, hi, hcell]
    · rw [if_neg hi]
  | false =>
    rw [hold] at hcell
    have hcells : (r.insert s t).cells = r.cells.setIfInBounds (r.place s t) true := by
      simp [insert, insert?, hcell]
    rw [cell?, hcells]
    by_cases hi : i = r.place s t
    · rw [if_pos hi, hi, Array.getElem?_setIfInBounds_self_of_lt hlt]
    · rw [if_neg hi, Array.getElem?_setIfInBounds_ne (Ne.symm hi), cell?]

@[simp] theorem size_insert : (r.insert s t).size = r.size := by
  simp only [insert, insert?]
  cases r.cell? (r.place s t) with
  | none => rfl
  | some marked => cases marked <;> rfl

theorem contains_insert (hs : s < r.size) (ht : t < r.size) :
    (r.insert s t).contains a b = true ↔ (a, b) = (s, t) ∨ r.contains a b = true := by
  rw [contains_iff, contains_iff, size_insert, cell?_insert hs ht, Prod.mk.injEq]
  have hplace : (r.insert s t).place a b = r.place a b := by rw [place, size_insert, place]
  rw [hplace]
  by_cases hb : b < r.size
  · by_cases hsame : a = s ∧ b = t
    · obtain ⟨rfl, rfl⟩ := hsame
      simp [hs, ht]
    · have hne : r.place a b ≠ r.place s t := fun h => hsame ((place_inj hb ht).mp h)
      simp [hne, hsame]
  · have hne : b ≠ t := fun h => hb (h ▸ ht)
    simp [hb, hne]

/-- Marking a list of pairs adds these pairs and no others. -/
theorem contains_foldl_insertPair (pairs : List (ClassId × ClassId)) (r : Relation)
    (h : ∀ p ∈ pairs, p.1 < r.size ∧ p.2 < r.size) :
    (pairs.foldl insertPair r).contains a b = true ↔
      (a, b) ∈ pairs ∨ r.contains a b = true := by
  induction pairs generalizing r with
  | nil => simp
  | cons pair pairs ih =>
    obtain ⟨hs, ht⟩ := h pair List.mem_cons_self
    have hrest : ∀ p ∈ pairs, p.1 < (r.insertPair pair).size ∧ p.2 < (r.insertPair pair).size := by
      intro p hp
      rw [insertPair, size_insert]
      exact h p (List.mem_cons_of_mem _ hp)
    rw [List.foldl_cons, ih _ hrest, insertPair, contains_insert hs ht, List.mem_cons]
    grind

/-! Marking in any order. -/

/-- Marking counts, unless there is a mark already or no cell. -/
theorem insert_eq (r : Relation) (s t : ClassId) :
    (r.insert s t).cells = r.cells.setIfInBounds (r.place s t) true ∧
      (r.insert s t).count = r.count + (r.cell? (r.place s t) == some false).toNat := by
  cases hcell : r.cell? (r.place s t) with
  | none =>
    have hout : r.cells.size ≤ r.place s t := Array.getElem?_eq_none_iff.mp hcell
    simp [insert, insert?, hcell, Array.setIfInBounds_eq_of_size_le hout]
  | some marked =>
    cases marked with
    | false => simp [insert, insert?, hcell]
    | true =>
      have hsame : r.cells.setIfInBounds (r.place s t) true = r.cells := by
        obtain ⟨hlt, htrue⟩ := Array.getElem?_eq_some_iff.mp hcell
        rw [Array.setIfInBounds_def, dif_pos hlt, ← htrue, Array.set_getElem_self]
      simp [insert, insert?, hcell, hsame]

theorem ext_cells {r r' : Relation} (hsize : r.size = r'.size) (hcells : r.cells = r'.cells)
    (hcount : r.count = r'.count) : r = r' := by
  cases r
  cases r'
  simp_all

theorem place_insert : (r.insert s t).place a b = r.place a b := by
  rw [place, size_insert, place]

theorem insert_comm (r : Relation) (a b s t : ClassId) :
    (r.insert a b).insert s t = (r.insert s t).insert a b := by
  by_cases hsame : r.place a b = r.place s t
  · apply ext_cells
    · rw [size_insert, size_insert, size_insert, size_insert]
    · simp only [(insert_eq _ _ _).1, place_insert, hsame]
    · simp only [(insert_eq _ _ _).2, place_insert, hsame, cell?, (insert_eq _ _ _).1]
  · apply ext_cells
    · rw [size_insert, size_insert, size_insert, size_insert]
    · simp only [(insert_eq _ _ _).1, place_insert]
      exact Array.setIfInBounds_comm _ _ hsame
    · simp only [(insert_eq _ _ _).2, place_insert, cell?, (insert_eq _ _ _).1]
      rw [Array.getElem?_setIfInBounds_ne hsame, Array.getElem?_setIfInBounds_ne (Ne.symm hsame)]
      omega

theorem foldl_insertPair_perm {pairs pairs' : List (ClassId × ClassId)} (h : pairs.Perm pairs')
    (r : Relation) : pairs.foldl insertPair r = pairs'.foldl insertPair r :=
  h.foldl_eq' (fun p _ q _ r => insert_comm r p.1 p.2 q.1 q.2) r

/-! Rows and columns. -/

theorem size_foldl_insertPair (pairs : List (ClassId × ClassId)) (r : Relation) :
    (pairs.foldl insertPair r).size = r.size := by
  induction pairs generalizing r with
  | nil => rfl
  | cons pair pairs ih => rw [List.foldl_cons, ih, insertPair, size_insert]

theorem cell?_eq_some (ha : a < r.size) (hb : b < r.size) :
    r.cell? (r.place a b) = some (r.contains a b) := by
  obtain ⟨marked, hcell⟩ : ∃ marked, r.cell? (r.place a b) = some marked :=
    ⟨_, Array.getElem?_eq_getElem (place_lt_size ha hb)⟩
  cases marked <;> simp [contains, ha, hb, hcell]

theorem insert?_eq_some (ha : a < r.size) (hb : b < r.size) :
    r.insert? a b = some (!r.contains a b, r.insert a b) := by
  rw [insert, insert?, cell?_eq_some ha hb]
  cases r.contains a b <;> rfl

/-- The row of a class lies in the table. -/
theorem hasOutgoing?_eq (ha : a < r.size) : r.hasOutgoing? a =
    some ((List.range r.size).any fun b => r.cell? (r.place a b) = some true) := by
  have hrow : a * r.size + r.size ≤ r.cells.size := by
    rw [r.size_cells, ← Nat.succ_mul]
    exact Nat.mul_le_mul_right r.size ha
  rw [hasOutgoing?, if_pos hrow]

theorem hasOutgoing?_eq_some (ha : a < r.size) : r.hasOutgoing? a = some (r.hasOutgoing a) := by
  rw [hasOutgoing, hasOutgoing?_eq ha, Option.getD_some]

theorem hasOutgoing_iff (ha : a < r.size) :
    r.hasOutgoing a = true ↔ ∃ b, r.contains a b = true := by
  rw [hasOutgoing, hasOutgoing?_eq ha, Option.getD_some, List.any_eq_true]
  simp only [List.mem_range, decide_eq_true_eq, contains_iff, ha, true_and]

/-- Where all rows reach the column the search for a mark never leaves the table. -/
theorem seekMark_eq (hb : b < r.size) {rows : List ClassId} (hrows : ∀ a ∈ rows, a < r.size) :
    r.seekMark b rows = some (rows.any fun a => r.contains a b) := by
  induction rows with
  | nil => rfl
  | cons a rows ih =>
    obtain ⟨ha, hrest⟩ := List.forall_mem_cons.mp hrows
    rw [seekMark, cell?_eq_some ha hb, List.any_cons]
    cases r.contains a b with
    | true => rfl
    | false => exact ih hrest

theorem hasIncoming?_eq (hb : b < r.size) :
    r.hasIncoming? b = some ((List.range r.size).any fun a => r.contains a b) :=
  seekMark_eq hb fun _ ha => List.mem_range.mp ha

theorem hasIncoming?_eq_some (hb : b < r.size) : r.hasIncoming? b = some (r.hasIncoming b) := by
  rw [hasIncoming, hasIncoming?_eq hb, Option.getD_some]

theorem hasIncoming_iff (hb : b < r.size) :
    r.hasIncoming b = true ↔ ∃ a, r.contains a b = true := by
  rw [hasIncoming, hasIncoming?_eq hb, Option.getD_some, List.any_eq_true]
  constructor
  · intro h
    obtain ⟨a, -, hmark⟩ := h
    exact ⟨a, hmark⟩
  · intro h
    obtain ⟨a, hmark⟩ := h
    exact ⟨a, List.mem_range.mpr (contains_iff.mp hmark).1, hmark⟩

end AttachmentGrammar.Relation
