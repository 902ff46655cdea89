/-!
Finite sets held as strictly increasing lists. Main statement: two sets with the same members are
the same value.
-/
namespace AttachmentGrammar

variable {α : Type} [Ord α]

structure SortedSet (α : Type) [Ord α] where
  toList : List α
  increasing : toList.Pairwise fun a b => compare a b = .lt
  deriving DecidableEq

namespace SortedSet

instance : Membership α (SortedSet α) := ⟨fun s a => a ∈ s.toList⟩

instance [DecidableEq α] (a : α) (s : SortedSet α) : Decidable (a ∈ s) :=
  inferInstanceAs (Decidable (a ∈ s.toList))

@[simp] theorem mem_toList {a : α} {s : SortedSet α} : a ∈ s.toList ↔ a ∈ s := Iff.rfl

def empty : SortedSet α := ⟨[], List.Pairwise.nil⟩

instance : Inhabited (SortedSet α) := ⟨empty⟩

def isEmpty (s : SortedSet α) : Bool := s.toList.isEmpty

def size (s : SortedSet α) : Nat := s.toList.length

def place (a : α) : List α → List α
  | [] => [a]
  | b :: rest =>
    match compare a b with
    | .lt => a :: b :: rest
    | .eq => a :: rest
    | .gt => b :: place a rest

theorem mem_of_mem_place {a b : α} {items : List α} (h : b ∈ place a items) :
    b = a ∨ b ∈ items := by
  induction items with
  | nil => exact Or.inl (by simpa [place] using h)
  | cons c rest ih =>
    simp only [place] at h
    split at h
    · simpa using h
    · simp only [List.mem_cons] at h ⊢
      exact h.imp_right Or.inr
    · simp only [List.mem_cons] at h ⊢
      rcases h with h | h
      · exact Or.inr (Or.inl h)
      · exact (ih h).imp_right Or.inr

theorem increasing_place [Std.TransOrd α] (a : α) {items : List α}
    (h : items.Pairwise fun a b => compare a b = .lt) :
    (place a items).Pairwise fun a b => compare a b = .lt := by
  induction items with
  | nil => exact List.pairwise_singleton _ _
  | cons b rest ih =>
    have hrest := (List.pairwise_cons.mp h).1
    have htail := (List.pairwise_cons.mp h).2
    simp only [place]
    split
    · rename_i hlt
      refine List.pairwise_cons.mpr ⟨fun c hc => ?_, h⟩
      rcases List.mem_cons.mp hc with rfl | hc
      · exact hlt
      · exact Std.TransCmp.lt_trans hlt (hrest c hc)
    · rename_i heq
      exact List.pairwise_cons.mpr
        ⟨fun c hc => Std.TransCmp.lt_of_eq_of_lt heq (hrest c hc), htail⟩
    · rename_i hgt
      refine List.pairwise_cons.mpr ⟨fun c hc => ?_, ih htail⟩
      rcases mem_of_mem_place hc with rfl | hc
      · exact Std.OrientedCmp.lt_of_gt hgt
      · exact hrest c hc

def insert [Std.TransOrd α] (s : SortedSet α) (a : α) : SortedSet α :=
  ⟨place a s.toList, increasing_place a s.increasing⟩

def erase [DecidableEq α] (s : SortedSet α) (a : α) : SortedSet α :=
  ⟨s.toList.filter (· ≠ a), List.Pairwise.filter _ s.increasing⟩

def insertAll [Std.TransOrd α] (s : SortedSet α) (items : List α) : SortedSet α :=
  items.foldl insert s

def union [Std.TransOrd α] (s t : SortedSet α) : SortedSet α := s.insertAll t.toList

def ofList [Std.TransOrd α] (items : List α) : SortedSet α := empty.insertAll items

theorem mem_place [Std.LawfulEqOrd α] {a b : α} {items : List α} :
    b ∈ place a items ↔ b = a ∨ b ∈ items := by
  refine ⟨mem_of_mem_place, fun h => ?_⟩
  induction items with
  | nil => simpa [place] using h
  | cons c rest ih =>
    simp only [place]
    split
    · simpa using h
    · rename_i heq
      obtain rfl := Std.LawfulEqOrd.eq_of_compare heq
      simp only [List.mem_cons] at h ⊢
      exact h.elim Or.inl id
    · simp only [List.mem_cons] at h ih ⊢
      rcases h with h | h | h
      · exact Or.inr (ih (Or.inl h))
      · exact Or.inl h
      · exact Or.inr (ih (Or.inr h))

@[simp] theorem not_mem_empty (a : α) : a ∉ (empty : SortedSet α) := List.not_mem_nil

@[simp] theorem mem_insert [Std.TransOrd α] [Std.LawfulEqOrd α] {a b : α} {s : SortedSet α} :
    b ∈ s.insert a ↔ b = a ∨ b ∈ s :=
  mem_place

@[simp] theorem mem_erase [DecidableEq α] {a b : α} {s : SortedSet α} :
    b ∈ s.erase a ↔ b ≠ a ∧ b ∈ s := by
  show b ∈ s.toList.filter _ ↔ _
  simp [and_comm]

@[simp] theorem mem_insertAll [Std.TransOrd α] [Std.LawfulEqOrd α] {b : α} {items : List α}
    {s : SortedSet α} : b ∈ s.insertAll items ↔ b ∈ s ∨ b ∈ items := by
  induction items generalizing s with
  | nil => simp [insertAll]
  | cons a rest ih =>
    have : s.insertAll (a :: rest) = (s.insert a).insertAll rest := rfl
    rw [this, ih, mem_insert, List.mem_cons, or_comm (a := b = a), or_assoc]

@[simp] theorem mem_union [Std.TransOrd α] [Std.LawfulEqOrd α] {b : α} {s t : SortedSet α} :
    b ∈ s.union t ↔ b ∈ s ∨ b ∈ t :=
  mem_insertAll

@[simp] theorem mem_ofList [Std.TransOrd α] [Std.LawfulEqOrd α] {b : α} {items : List α} :
    b ∈ ofList items ↔ b ∈ items := by
  simp [ofList]

theorem nodup_toList [Std.ReflOrd α] (s : SortedSet α) : s.toList.Nodup :=
  s.increasing.imp fun hlt heq => by simp [heq] at hlt

theorem ext [Std.TransOrd α] {s t : SortedSet α} (h : ∀ a, a ∈ s ↔ a ∈ t) : s = t := by
  have asymm (a b : α) (hab : compare a b = .lt) (hba : compare b a = .lt) : a = b :=
    (Std.OrientedCmp.not_lt_of_lt hab hba).elim
  have hl : s.toList = t.toList :=
    List.Perm.eq_of_pairwise (fun a b _ _ => asymm a b) s.increasing t.increasing
      ((List.perm_ext_iff_of_nodup s.nodup_toList t.nodup_toList).mpr h)
  cases s
  cases t
  simpa using hl

theorem insert_of_mem [Std.TransOrd α] [Std.LawfulEqOrd α] {a : α} {s : SortedSet α} (h : a ∈ s) :
    s.insert a = s :=
  ext fun b => by
    rw [mem_insert, or_iff_right_of_imp]
    intro hb
    exact hb ▸ h

theorem erase_of_not_mem [Std.TransOrd α] [DecidableEq α] {a : α} {s : SortedSet α} (h : a ∉ s) :
    s.erase a = s :=
  ext fun b => by
    rw [mem_erase, and_iff_right_of_imp]
    rintro hb rfl
    exact h hb

theorem eq_toList [Std.TransOrd α] {items : List α} {s : SortedSet α}
    (h : items.Pairwise fun a b => compare a b = .lt) (hmem : ∀ a, a ∈ items ↔ a ∈ s) :
    items = s.toList :=
  congrArg toList (ext (s := ⟨items, h⟩) hmem)

end SortedSet

end AttachmentGrammar
