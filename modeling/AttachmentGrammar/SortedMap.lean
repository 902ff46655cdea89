/-!
Finite maps held as lists of entries with strictly increasing keys. Main statement: two maps that
answer every lookup alike are the same value, however they were built.
-/
namespace AttachmentGrammar

variable {κ : Type} {α β : Type} [Ord κ]

def Increasing (entries : List (κ × α)) : Prop :=
  entries.Pairwise fun a b => compare a.1 b.1 = .lt

instance (entries : List (κ × α)) : Decidable (Increasing entries) :=
  inferInstanceAs (Decidable (entries.Pairwise _))

structure SortedMap (κ α : Type) [Ord κ] where
  toList : List (κ × α)
  increasing : Increasing toList
  deriving DecidableEq

namespace SortedMap

def empty : SortedMap κ α := ⟨[], List.Pairwise.nil⟩

instance : Inhabited (SortedMap κ α) := ⟨empty⟩

def lookup (k : κ) : List (κ × α) → Option α
  | [] => none
  | (k', v) :: rest => if compare k k' = .eq then some v else lookup k rest

def get? (m : SortedMap κ α) (k : κ) : Option α := lookup k m.toList

def contains (m : SortedMap κ α) (k : κ) : Bool := (m.get? k).isSome

def size (m : SortedMap κ α) : Nat := m.toList.length

def keys (m : SortedMap κ α) : List κ := m.toList.map (·.1)

def values (m : SortedMap κ α) : List α := m.toList.map (·.2)

def place (k : κ) (v : α) : List (κ × α) → List (κ × α)
  | [] => [(k, v)]
  | (k', v') :: rest =>
    match compare k k' with
    | .lt => (k, v) :: (k', v') :: rest
    | .eq => (k, v) :: rest
    | .gt => (k', v') :: place k v rest

theorem mem_place {k : κ} {v : α} {entries : List (κ × α)} {e : κ × α}
    (h : e ∈ place k v entries) : e = (k, v) ∨ e ∈ entries := by
  induction entries with
  | nil => exact Or.inl (by simpa [place] using h)
  | cons a rest ih =>
    obtain ⟨k', v'⟩ := a
    simp only [place] at h
    split at h
    · simpa using h
    · simp only [List.mem_cons] at h ⊢
      exact h.imp_right Or.inr
    · simp only [List.mem_cons] at h ⊢
      rcases h with h | h
      · exact Or.inr (Or.inl h)
      · exact (ih h).imp_right Or.inr

theorem increasing_place [Std.TransOrd κ] (k : κ) (v : α) {entries : List (κ × α)}
    (h : Increasing entries) : Increasing (place k v entries) := by
  induction entries with
  | nil => exact List.pairwise_singleton _ _
  | cons a rest ih =>
    obtain ⟨k', v'⟩ := a
    have hrest := (List.pairwise_cons.mp h).1
    have htail := (List.pairwise_cons.mp h).2
    simp only [place]
    split
    · rename_i hlt
      refine List.pairwise_cons.mpr ⟨fun e he => ?_, h⟩
      rcases List.mem_cons.mp he with rfl | he
      · exact hlt
      · exact Std.TransCmp.lt_trans hlt (hrest e he)
    · rename_i heq
      exact List.pairwise_cons.mpr
        ⟨fun e he => Std.TransCmp.lt_of_eq_of_lt heq (hrest e he), htail⟩
    · rename_i hgt
      refine List.pairwise_cons.mpr ⟨fun e he => ?_, ih htail⟩
      rcases mem_place he with rfl | he
      · exact Std.OrientedCmp.lt_of_gt hgt
      · exact hrest e he

def insert [Std.TransOrd κ] (m : SortedMap κ α) (k : κ) (v : α) : SortedMap κ α :=
  ⟨place k v m.toList, increasing_place k v m.increasing⟩

def erase (m : SortedMap κ α) (k : κ) : SortedMap κ α :=
  ⟨m.toList.filter fun e => compare k e.1 ≠ .eq, List.Pairwise.filter _ m.increasing⟩

/-- Applies `f` to the value at `k`; a map without `k` stays as it is. -/
def modify [Std.TransOrd κ] (m : SortedMap κ α) (k : κ) (f : α → α) : SortedMap κ α :=
  match m.get? k with
  | none => m
  | some v => m.insert k (f v)

/-- Applies `f` to the value at `k`, or to `fresh` in a map without `k`. -/
def modifyD [Std.TransOrd κ] (m : SortedMap κ α) (k : κ) (fresh : α) (f : α → α) : SortedMap κ α :=
  m.insert k (f ((m.get? k).getD fresh))

def mapValues (f : α → β) (m : SortedMap κ α) : SortedMap κ β :=
  ⟨m.toList.map fun e => (e.1, f e.2), by
    simpa [Increasing, List.pairwise_map] using m.increasing⟩

/-- The last entry given for a key counts. -/
def ofList [Std.TransOrd κ] (entries : List (κ × α)) : SortedMap κ α :=
  entries.foldl (fun m e => m.insert e.1 e.2) empty

theorem lookup_place [Std.TransOrd κ] (k k' : κ) (v : α) (entries : List (κ × α)) :
    lookup k' (place k v entries) = if compare k' k = .eq then some v else lookup k' entries := by
  induction entries with
  | nil => simp [place, lookup]
  | cons a rest ih =>
    obtain ⟨q, w⟩ := a
    simp only [place]
    split
    · simp [lookup]
    · rename_i heq
      have hiff : compare k' q = .eq ↔ compare k' k = .eq :=
        ⟨fun h => Std.TransCmp.eq_trans h (Std.OrientedCmp.eq_symm heq),
         fun h => Std.TransCmp.eq_trans h heq⟩
      by_cases h : compare k' k = .eq <;> simp [lookup, h, hiff]
    · rename_i hgt
      simp only [lookup, ih]
      by_cases h : compare k' k = .eq
      · have hne : compare k' q ≠ .eq := fun hq => by
          have := Std.TransCmp.eq_trans (Std.OrientedCmp.eq_symm h) hq
          rw [this] at hgt
          cases hgt
        simp [h, hne]
      · simp [h]

theorem lookup_filter [Std.TransOrd κ] (k k' : κ) (entries : List (κ × α)) :
    lookup k' (entries.filter fun e => compare k e.1 ≠ .eq) =
      if compare k' k = .eq then none else lookup k' entries := by
  induction entries with
  | nil => simp [lookup]
  | cons a rest ih =>
    obtain ⟨q, w⟩ := a
    by_cases hk : compare k q = .eq
    · have hiff : compare k' q = .eq ↔ compare k' k = .eq :=
        ⟨fun h => Std.TransCmp.eq_trans h (Std.OrientedCmp.eq_symm hk),
         fun h => Std.TransCmp.eq_trans h hk⟩
      simp only [ne_eq, hk, not_true_eq_false, decide_false, Bool.false_eq_true, not_false_eq_true,
        List.filter_cons_of_neg, lookup, hiff] at ih ⊢
      rw [ih]
      by_cases h : compare k' k = .eq <;> simp [h]
    · simp only [ne_eq, hk, not_false_eq_true, decide_true, List.filter_cons_of_pos, lookup] at ih ⊢
      rw [ih]
      by_cases h : compare k' k = .eq
      · have hne : compare k' q ≠ .eq := fun hq =>
          hk (Std.TransCmp.eq_trans (Std.OrientedCmp.eq_symm h) hq)
        simp [h, hne]
      · simp [h]

@[simp] theorem get?_empty (k : κ) : (empty : SortedMap κ α).get? k = none := rfl

theorem get?_insert [Std.TransOrd κ] (m : SortedMap κ α) (k k' : κ) (v : α) :
    (m.insert k v).get? k' = if compare k' k = .eq then some v else m.get? k' :=
  lookup_place k k' v m.toList

theorem get?_erase [Std.TransOrd κ] (m : SortedMap κ α) (k k' : κ) :
    (m.erase k).get? k' = if compare k' k = .eq then none else m.get? k' :=
  lookup_filter k k' m.toList

theorem get?_modify [Std.TransOrd κ] (m : SortedMap κ α) (k k' : κ) (f : α → α)
    [Std.LawfulEqOrd κ] :
    (m.modify k f).get? k' = if compare k' k = .eq then (m.get? k).map f else m.get? k' := by
  unfold modify
  split
  · rename_i h
    by_cases hk : compare k' k = .eq
    · simp [Std.LawfulEqOrd.eq_of_compare hk, h]
    · simp [hk]
  · rename_i v h
    simp [get?_insert, h]

theorem mem_iff_lookup [Std.TransOrd κ] [Std.LawfulEqOrd κ] {entries : List (κ × α)}
    (h : Increasing entries) (k : κ) (v : α) : (k, v) ∈ entries ↔ lookup k entries = some v := by
  induction entries with
  | nil => simp [lookup]
  | cons a rest ih =>
    obtain ⟨q, w⟩ := a
    have hrest := (List.pairwise_cons.mp h).1
    have htail := (List.pairwise_cons.mp h).2
    simp only [lookup, List.mem_cons, Prod.mk.injEq]
    by_cases hk : compare k q = .eq
    · obtain rfl := Std.LawfulEqOrd.eq_of_compare hk
      have hnot : (k, v) ∉ rest := fun hm => by
        have := hrest _ hm
        rw [hk] at this
        cases this
      simp [hnot, eq_comm]
    · have hne : k ≠ q := fun he => hk (he ▸ Std.compare_self)
      simp [hk, hne, ih htail]

theorem mem_toList_iff [Std.TransOrd κ] [Std.LawfulEqOrd κ] {m : SortedMap κ α} {k : κ} {v : α} :
    (k, v) ∈ m.toList ↔ m.get? k = some v :=
  mem_iff_lookup m.increasing k v

theorem entries_ext [Std.TransOrd κ] {xs ys : List (κ × α)} (hx : Increasing xs)
    (hy : Increasing ys) (h : ∀ e, e ∈ xs ↔ e ∈ ys) : xs = ys := by
  have nodup {zs : List (κ × α)} (hz : Increasing zs) : zs.Nodup :=
    hz.imp fun hab he => by simp [he] at hab
  have asymm (a b : κ × α) (hab : compare a.1 b.1 = .lt) (hba : compare b.1 a.1 = .lt) : a = b :=
    (Std.OrientedCmp.not_lt_of_lt hab hba).elim
  exact List.Perm.eq_of_pairwise (fun a b _ _ => asymm a b) hx hy
    ((List.perm_ext_iff_of_nodup (nodup hx) (nodup hy)).mpr h)

theorem ext_get? [Std.TransOrd κ] [Std.LawfulEqOrd κ] {m m' : SortedMap κ α}
    (h : ∀ k, m.get? k = m'.get? k) : m = m' := by
  have hl : m.toList = m'.toList :=
    entries_ext m.increasing m'.increasing fun e => by
      obtain ⟨k, v⟩ := e
      rw [mem_toList_iff, mem_toList_iff, h]
  cases m
  cases m'
  simpa using hl

end SortedMap

end AttachmentGrammar
