import AttachmentGrammar.Proofs.Relation
/-!
The marks of a table as a list of pairs. Main statements: the list holds the pairs of the set, in
the order of their classes, and so each once; and the count that marking keeps is its length.
-/
namespace AttachmentGrammar.Relation

variable {r : Relation} {a b : ClassId}

theorem place_div_add_mod (r : Relation) (i : Nat) : r.place (i / r.size) (i % r.size) = i :=
  Nat.div_add_mod' i r.size

theorem mem_pairs : (a, b) ∈ r.pairs ↔ r.contains a b = true := by
  simp only [pairs, List.mem_filterMap, List.mem_range, contains_iff, Option.ite_none_right_eq_some,
    Option.some.injEq, Prod.mk.injEq]
  constructor
  · intro h
    obtain ⟨i, hi, hcell, rfl, rfl⟩ := h
    rw [r.size_cells] at hi
    have hsize : 0 < r.size := Nat.pos_of_lt_mul_right hi
    refine ⟨Nat.div_lt_of_lt_mul hi, Nat.mod_lt i hsize, ?_⟩
    rwa [place_div_add_mod]
  · intro h
    obtain ⟨ha, hb, hcell⟩ := h
    exact ⟨r.place a b, place_lt_size ha hb, hcell, place_div hb, place_mod hb⟩

/-- The pairs stand in the order of their sources, those of one source in that of their targets. -/
theorem increasing_pairs (r : Relation) :
    r.pairs.Pairwise fun p q => p.1 < q.1 ∨ p.1 = q.1 ∧ p.2 < q.2 := by
  rw [pairs, List.pairwise_filterMap]
  refine List.pairwise_lt_range.imp ?_
  intro i j hlt p hp q hq
  obtain rfl := Option.some.inj (Option.ite_none_right_eq_some.mp hp).2
  obtain rfl := Option.some.inj (Option.ite_none_right_eq_some.mp hq).2
  have hrows : i / r.size ≤ j / r.size := Nat.div_le_div_right (Nat.le_of_lt hlt)
  rcases Nat.lt_or_eq_of_le hrows with hrow | hrow
  · exact .inl hrow
  · refine .inr ⟨hrow, ?_⟩
    have hi := Nat.div_add_mod i r.size
    have hj := Nat.div_add_mod j r.size
    rw [hrow] at hi
    show i % r.size < j % r.size
    omega

/-! The count of marks. -/

/-- The count kept is the number of marks. -/
def Counted (r : Relation) : Prop := r.count = r.cells.count true

theorem length_pairs (r : Relation) : r.pairs.length = r.cells.count true := by
  have hcells : (List.range r.cells.size).map r.cell? = r.cells.toList.map some := by
    apply List.ext_getElem?
    intro i
    by_cases hi : i < r.cells.size
    · simp [hi, cell?]
    · simp [hi]
  have hmarked : (fun i => (if r.cell? i = some true then
      some (i / r.size, i % r.size) else none).isSome) = (· == some true) ∘ r.cell? := by
    funext i
    by_cases hi : r.cell? i = some true <;> simp [hi]
  rw [pairs, List.length_filterMap_eq_countP, hmarked, ← List.countP_map, hcells, List.countP_map,
    ← Array.count_toList, List.count]
  rfl

theorem counted_empty (n : Nat) : (empty n).Counted := by
  simp [Counted, empty, Array.count_replicate]

theorem counted_insert (h : r.Counted) (a b : ClassId) : (r.insert a b).Counted := by
  obtain ⟨hcells, hcount⟩ := insert_eq r a b
  rw [Counted, hcells, hcount, h]
  cases hcell : r.cell? (r.place a b) with
  | none =>
    have hout : r.cells.size ≤ r.place a b := Array.getElem?_eq_none_iff.mp hcell
    simp [Array.setIfInBounds_eq_of_size_le hout]
  | some marked =>
    obtain ⟨hlt, rfl⟩ := Array.getElem?_eq_some_iff.mp hcell
    rw [Array.setIfInBounds_def, dif_pos hlt, Array.count_set]
    cases hmarked : r.cells[r.place a b] with
    | false => simp
    | true =>
      -- a mark that is set again is taken off the count and put back
      have hpos : 0 < r.cells.count true :=
        Array.count_pos_iff.mpr (hmarked ▸ Array.getElem_mem hlt)
      simp [Nat.sub_add_cancel hpos]

theorem counted_foldl_insertPair (pairs : List (ClassId × ClassId)) (h : r.Counted) :
    (pairs.foldl insertPair r).Counted := by
  induction pairs generalizing r with
  | nil => exact h
  | cons pair pairs ih => exact ih (counted_insert h pair.1 pair.2)

theorem Counted.length_pairs (h : r.Counted) : r.pairs.length = r.count :=
  (Relation.length_pairs r).trans h.symm

end AttachmentGrammar.Relation
