import AttachmentGrammar.Proofs.Relation.Pairs
import Mathlib.Data.Finset.Card
/-!
Marking by place in the whole table. A column past the end of a row lands in a later row, and only
a place outside the table fails. Main statement: after any pairs that can be marked in turn, every
query shows the set of pairs where these land, and each once.
-/
namespace AttachmentGrammar.Relation

variable {r r' : Relation} {a b s t : ClassId} {n : Nat} {fresh : Bool}
  {inserts : List (ClassId × ClassId)}

/-- Where a pair lands in a table of `n` rows. -/
def landing (n : Nat) (pair : ClassId × ClassId) : ClassId × ClassId :=
  ((pair.1 * n + pair.2) / n, (pair.1 * n + pair.2) % n)

/-- Marks pairs in turn; a place outside the table ends it. -/
def insertAll? : List (ClassId × ClassId) → Relation → Option Relation
  | [], r => some r
  | pair :: inserts, r => (r.insert? pair.1 pair.2).bind fun (_, r) => insertAll? inserts r

/-- The pairs, with no result where a place would be divided by 0. -/
def pairs? (r : Relation) : Option (List (ClassId × ClassId)) :=
  ((List.range r.cells.size).filter fun place => r.cell? place = some true).mapM fun place =>
    if r.size = 0 then none else some (place / r.size, place % r.size)

theorem pairs?_eq (r : Relation) : r.pairs? = some r.pairs := by
  have hpairs : r.pairs = ((List.range r.cells.size).filter fun place =>
      r.cell? place = some true).map fun place => (place / r.size, place % r.size) := by
    rw [← List.filterMap_eq_filter, List.map_filterMap, pairs]
    refine List.filterMap_congr fun place _ => ?_
    by_cases hmark : r.cell? place = some true <;> simp [Option.guard, hmark]
  rw [hpairs, pairs?]
  by_cases hsize : r.size = 0
  · have hcells : r.cells.size = 0 := by rw [r.size_cells, hsize]
    rw [hcells]
    rfl
  · simp only [if_neg hsize]
    exact List.mapM_pure

/-! The set of marks. -/

def marked (r : Relation) : Finset (ClassId × ClassId) := r.pairs.toFinset

theorem mem_marked {p : ClassId × ClassId} : p ∈ r.marked ↔ r.contains p.1 p.2 = true := by
  rw [marked, List.mem_toFinset, ← mem_pairs]

theorem marked_empty (n : Nat) : (empty n).marked = ∅ := by
  refine Finset.eq_empty_of_forall_notMem fun p hp => ?_
  rw [mem_marked, contains_empty] at hp
  cases hp

theorem marked_insert (hs : s < r.size) (ht : t < r.size) :
    (r.insert s t).marked = Insert.insert (s, t) r.marked := by
  ext p
  rw [mem_marked, contains_insert hs ht, Finset.mem_insert, mem_marked]

theorem nodup_pairs (r : Relation) : r.pairs.Nodup :=
  r.increasing_pairs.imp fun {p q} hlt heq => by
    subst heq
    rcases hlt with hlt | ⟨-, hlt⟩ <;> exact Nat.lt_irrefl _ hlt

theorem Counted.card_marked (h : r.Counted) : r.count = r.marked.card := by
  rw [marked, List.toFinset_card_of_nodup r.nodup_pairs, h.length_pairs]

/-! One pair. -/

theorem landing_lt (h : a * n + b < n * n) : (landing n (a, b)).1 < n ∧ (landing n (a, b)).2 < n :=
  ⟨Nat.div_lt_of_lt_mul h, Nat.mod_lt _ (Nat.pos_of_lt_mul_right h)⟩

theorem insert?_congr (h : r.place a b = r.place s t) : r.insert? a b = r.insert? s t := by
  simp only [insert?, h]

theorem insert?_eq_none_iff : r.insert? a b = none ↔ r.size * r.size ≤ a * r.size + b := by
  rw [← r.size_cells]
  refine Iff.trans ?_ Array.getElem?_eq_none_iff
  change _ ↔ r.cell? (r.place a b) = none
  rw [insert?]
  cases r.cell? (r.place a b) with
  | none => simp
  | some marked => cases marked <;> simp

theorem lt_of_insert? (h : r.insert? a b = some (fresh, r')) :
    a * r.size + b < r.size * r.size := by
  refine Nat.lt_of_not_le fun hout => ?_
  rw [insert?_eq_none_iff.mpr hout] at h
  cases h

/-- Marking a pair is marking the pair where it lands. -/
theorem insert?_marks (h : r.insert? a b = some (fresh, r')) :
    (fresh = true ↔ landing r.size (a, b) ∉ r.marked) ∧ r'.size = r.size ∧
      r'.marked = Insert.insert (landing r.size (a, b)) r.marked ∧ (r.Counted → r'.Counted) := by
  obtain ⟨hrow, hcolumn⟩ := landing_lt (lt_of_insert? h)
  have hplace : r.place a b = r.place (landing r.size (a, b)).1 (landing r.size (a, b)).2 :=
    (place_div_add_mod r _).symm
  rw [insert?_congr hplace, insert?_eq_some hrow hcolumn] at h
  obtain ⟨rfl, rfl⟩ := Prod.mk.inj (Option.some.inj h)
  refine ⟨?_, size_insert, marked_insert hrow hcolumn, fun hc => counted_insert hc _ _⟩
  rw [mem_marked, Bool.not_eq_true', Bool.not_eq_true]

/-! Any number of pairs. -/

/-- What a table of `n` rows shows of the pairs that are marked in it. -/
structure Shows (r : Relation) (n : Nat) (marked : Finset (ClassId × ClassId)) : Prop where
  below : ∀ p ∈ marked, p.1 < n ∧ p.2 < n
  count_eq : r.count = marked.card
  pairs_mem : ∀ p, p ∈ r.pairs ↔ p ∈ marked
  pairs_order : r.pairs.Pairwise fun p q => p.1 < q.1 ∨ p.1 = q.1 ∧ p.2 < q.2
  pairs_divide : r.pairs? = some r.pairs
  contains_iff : ∀ a b, r.contains a b = true ↔ a < n ∧ b < n ∧ (a, b) ∈ marked
  outgoing : ∀ a < n, ∃ found, r.hasOutgoing? a = some found ∧
    (found = true ↔ ∃ p ∈ marked, p.1 = a)
  incoming : ∀ b < n, ∃ found, r.hasIncoming? b = some found ∧
    (found = true ↔ ∃ p ∈ marked, p.2 = b)

theorem shows_marked (hc : r.Counted) : r.Shows r.size r.marked where
  below p hp := by
    obtain ⟨ha, hb, -⟩ := Relation.contains_iff.mp (mem_marked.mp hp)
    exact ⟨ha, hb⟩
  count_eq := hc.card_marked
  pairs_mem p := List.mem_toFinset.symm
  pairs_order := r.increasing_pairs
  pairs_divide := r.pairs?_eq
  contains_iff a b := by
    rw [mem_marked, Relation.contains_iff]
    tauto
  outgoing a ha := by
    refine ⟨_, hasOutgoing?_eq_some ha, (hasOutgoing_iff ha).trans ?_⟩
    simp [mem_marked]
  incoming b hb := by
    refine ⟨_, hasIncoming?_eq_some hb, (hasIncoming_iff hb).trans ?_⟩
    simp [mem_marked]

/-- The marks that pairs leave in a table of `n` rows. -/
def landings (n : Nat) (inserts : List (ClassId × ClassId)) : Finset (ClassId × ClassId) :=
  (inserts.map (landing n)).toFinset

theorem insertAll?_eq_none_iff : insertAll? inserts r = none ↔
    ∃ p ∈ inserts, r.size * r.size ≤ p.1 * r.size + p.2 := by
  induction inserts generalizing r with
  | nil => simp [insertAll?]
  | cons pair inserts ih =>
    simp only [insertAll?, List.mem_cons, exists_eq_or_imp]
    cases hinsert : r.insert? pair.1 pair.2 with
    | none => simp [insert?_eq_none_iff.mp hinsert]
    | some result =>
      obtain ⟨fresh, r'⟩ := result
      obtain ⟨-, hsize, -⟩ := insert?_marks hinsert
      rw [Option.bind_some, ih, hsize]
      simp [Nat.not_le.mpr (lt_of_insert? hinsert)]

theorem insertAll?_eq_some (hc : r.Counted) (h : insertAll? inserts r = some r') :
    r'.Counted ∧ r'.size = r.size ∧ r'.marked = r.marked ∪ landings r.size inserts := by
  induction inserts generalizing r with
  | nil =>
    obtain rfl := Option.some.inj h
    exact ⟨hc, rfl, (Finset.union_empty _).symm⟩
  | cons pair inserts ih =>
    obtain ⟨⟨fresh, first⟩, hinsert, hrest⟩ := Option.bind_eq_some_iff.mp h
    obtain ⟨-, hsize, hmarked, hcounted⟩ := insert?_marks hinsert
    obtain ⟨hc', hsize', hmarked'⟩ := ih (hcounted hc) hrest
    refine ⟨hc', hsize'.trans hsize, ?_⟩
    rw [hmarked', hmarked, hsize, landings, landings, List.map_cons, List.toFinset_cons,
      Finset.insert_union, Finset.union_insert]

/-- Pairs can be marked in turn exactly if all their places are in the table; the table then shows
the pairs where they land, and the same is true of any further pair. -/
theorem insertAll?_shows (n : Nat) (inserts : List (ClassId × ClassId)) :
    (insertAll? inserts (empty n) = none ↔ ∃ p ∈ inserts, n * n ≤ p.1 * n + p.2) ∧
    ∀ r, insertAll? inserts (empty n) = some r → r.Shows n (landings n inserts) ∧
      ∀ a b, (r.insert? a b = none ↔ n * n ≤ a * n + b) ∧
        ∀ fresh r', r.insert? a b = some (fresh, r') →
          (fresh = true ↔ landing n (a, b) ∉ landings n inserts) ∧
            r'.Shows n (Insert.insert (landing n (a, b)) (landings n inserts)) := by
  refine ⟨insertAll?_eq_none_iff, fun r h => ?_⟩
  obtain ⟨hc, hsize, hmarked⟩ := insertAll?_eq_some (counted_empty n) h
  replace hsize : r.size = n := hsize
  subst hsize
  replace hmarked : landings r.size inserts = r.marked := by
    rw [hmarked, marked_empty, Finset.empty_union]
    rfl
  rw [hmarked]
  refine ⟨shows_marked hc, fun a b => ⟨insert?_eq_none_iff, fun fresh r' hinsert => ?_⟩⟩
  obtain ⟨hfresh, hsize, hset, hcounted⟩ := insert?_marks hinsert
  refine ⟨hfresh, ?_⟩
  rw [← hset, ← hsize]
  exact shows_marked (hcounted hc)

/-- In a table of three rows the sixth place stands in the second row, and (2, 3) is in none. -/
theorem insertAll?_shows_shifted : ∃ r,
    insertAll? [(0, 5), (2, 0), (1, 2)] (empty 3) = some r ∧
      r.Shows 3 {(1, 2), (2, 0)} ∧ r.insert? 2 3 = none := by
  obtain ⟨-, hok⟩ := insertAll?_shows 3 [(0, 5), (2, 0), (1, 2)]
  obtain ⟨hshows, hnext⟩ := hok _ rfl
  have hlandings : landings 3 [(0, 5), (2, 0), (1, 2)] = {(1, 2), (2, 0)} := by decide
  exact ⟨_, rfl, hlandings ▸ hshows, (hnext 2 3).1.mpr (by decide)⟩

end AttachmentGrammar.Relation
