import AttachmentGrammar.Cardinality
/-!
Many ranges at once. Main statements: intersecting one more range gives the narrowest of them all,
whatever their order and repetition; intersecting ranges one after the other fails in one order
exactly if it fails in every other, and, if none of them is empty, exactly if no count lies in all.
-/
namespace AttachmentGrammar

instance lawfulOrderMaxUInt32 : Std.LawfulOrderMax UInt32 where
  max_eq_or a b := by
    simp only [Max.max]
    split
    · exact .inr rfl
    · exact .inl rfl
  max_le_iff _ _ _ := Cardinality.max_low_le_iff

theorem max?_concat {α : Type} [Max α] {xs : List α} {m : α} (h : xs.max? = some m) (x : α) :
    (xs ++ [x]).max? = some (max m x) := by
  cases xs with
  | nil => cases h
  | cons y ys =>
    rw [List.max?_cons'] at h
    rw [List.cons_append, List.max?_cons', List.foldl_append, Option.some.inj h]
    rfl

theorem min?_concat {α : Type} [Min α] (xs : List α) (x : α) :
    (xs ++ [x]).min? = some ((xs.min?.map fun m => min m x).getD x) := by
  cases xs with
  | nil => rfl
  | cons y ys =>
    rw [List.cons_append, List.min?_cons', List.min?_cons', List.foldl_append]
    rfl

namespace Cardinality

/-- The greatest of the least counts up to the least of the greatest counts. -/
def narrowest (cs : List Cardinality) : Option Cardinality :=
  (cs.map low).max?.map fun low => ⟨low, (cs.filterMap high).min?⟩

theorem narrowest_eq_none_iff {cs : List Cardinality} : narrowest cs = none ↔ cs = [] := by
  rw [narrowest, Option.map_eq_none_iff, List.max?_eq_none_iff, List.map_eq_nil_iff]

theorem narrowest_singleton (c : Cardinality) : narrowest [c] = some c := by
  obtain ⟨low, high⟩ := c
  cases high <;> rfl

theorem narrowest_concat {cs : List Cardinality} {b c d : Cardinality} (h : narrowest cs = some b)
    (hi : b.intersect? c = some d) : narrowest (cs ++ [c]) = some d := by
  rw [narrowest, Option.map_eq_some_iff] at h
  obtain ⟨low, hlow, rfl⟩ := h
  have hd : d = ⟨max low c.low, leastHigh (cs.filterMap high).min? c.high⟩ := by
    simp only [intersect?, ofBounds?] at hi
    split at hi
    · exact (Option.some.inj hi).symm
    · cases hi
  have hhigh : ((cs ++ [c]).filterMap high).min? =
      leastHigh (cs.filterMap high).min? c.high := by
    cases hc : c.high with
    | none =>
      rw [List.filterMap_append, List.filterMap_cons_none hc, List.filterMap_nil, List.append_nil]
      cases (cs.filterMap high).min? <;> rfl
    | some n =>
      rw [List.filterMap_append, List.filterMap_cons_some hc, List.filterMap_nil, min?_concat]
      cases (cs.filterMap high).min? <;> rfl
  rw [narrowest, List.map_append, List.map_singleton, max?_concat hlow, hhigh, hd]
  rfl

theorem narrowest_congr {cs ds : List Cardinality} (h : ∀ c, c ∈ cs ↔ c ∈ ds) :
    narrowest cs = narrowest ds := by
  have hlow : (cs.map low).max? = (ds.map low).max? := by
    ext n
    simp only [List.max?_eq_some_iff, List.mem_map, h]
  have hhigh : (cs.filterMap high).min? = (ds.filterMap high).min? := by
    ext n
    simp only [List.min?_eq_some_iff, List.mem_filterMap, h]
  rw [narrowest, narrowest, hlow, hhigh]

/-- The narrowest of some ranges holds the counts that all of them hold. -/
theorem contains_narrowest {cs : List Cardinality} {n : UInt32} :
    ((narrowest cs).getD unbounded).contains n = true ↔ ∀ c ∈ cs, c.contains n = true := by
  cases hlow : (cs.map low).max? with
  | none =>
    obtain rfl := List.map_eq_nil_iff.mp (List.max?_eq_none_iff.mp hlow)
    exact iff_of_true (contains_iff.mpr ⟨UInt32.zero_le, nofun⟩) nofun
  | some least =>
    have hleast : least ≤ n ↔ ∀ c ∈ cs, c.low ≤ n := by
      rw [List.max?_le_iff hlow, List.forall_mem_map]
    have hgreatest : (∀ bound ∈ (cs.filterMap high).min?, n ≤ bound) ↔
        ∀ c ∈ cs, ∀ bound ∈ c.high, n ≤ bound := by
      cases hhigh : (cs.filterMap high).min? with
      | none =>
        rw [List.min?_eq_none_iff, List.filterMap_eq_nil_iff] at hhigh
        refine iff_of_true nofun fun c hc bound hbound => ?_
        rw [hhigh c hc] at hbound
        cases hbound
      | some greatest =>
        have hle := List.le_min?_iff hhigh (x := n)
        simp only [List.mem_filterMap, forall_exists_index, and_imp] at hle
        simp only [Option.mem_def, Option.some.injEq, forall_eq', hle]
        exact ⟨fun h c hc bound => h bound c hc, fun h bound c hc => h c hc bound⟩
    rw [narrowest, hlow, Option.map_some, Option.getD_some, contains_iff, hleast, hgreatest]
    simp only [contains_iff, imp_and, forall_and]

/-! Ranges that are not empty. -/

def Valid (c : Cardinality) : Prop := ∀ high ∈ c.high, c.low ≤ high

theorem all_low_le_iff {low : UInt32} {high : Option UInt32} :
    high.all (low ≤ ·) = true ↔ (⟨low, high⟩ : Cardinality).Valid := by
  cases high <;> simp [Valid]

-- the greatest count is looked at, and not all counts
instance (c : Cardinality) : Decidable c.Valid := decidable_of_iff _ all_low_le_iff

theorem ofBounds?_eq_some_iff {low : UInt32} {high : Option UInt32} {c : Cardinality} :
    ofBounds? low high = some c ↔ c = ⟨low, high⟩ ∧ c.Valid := by
  rw [ofBounds?]
  split
  · rename_i h
    rw [Option.some.injEq, eq_comm, iff_self_and]
    rintro rfl
    exact all_low_le_iff.mp h
  · rename_i h
    constructor
    · intro hc
      cases hc
    · intro hc
      obtain ⟨rfl, hvalid⟩ := hc
      exact (h (all_low_le_iff.mpr hvalid)).elim

theorem valid_of_intersect? {a b c : Cardinality} (h : a.intersect? b = some c) : c.Valid :=
  (ofBounds?_eq_some_iff.mp h).2

theorem contains_low {c : Cardinality} (h : c.Valid) : c.contains c.low = true :=
  contains_iff.mpr ⟨UInt32.le_refl _, h⟩

/-- Two ranges fail to intersect exactly if no count lies in both. -/
theorem intersect?_eq_none_iff {a b : Cardinality} :
    a.intersect? b = none ↔ ∀ n, ¬(a.contains n = true ∧ b.contains n = true) := by
  constructor
  · intro hnone n hboth
    have hcommon : (⟨max a.low b.low, leastHigh a.high b.high⟩ : Cardinality).Valid := by
      obtain ⟨⟨hal, hah⟩, hbl, hbh⟩ := And.imp contains_iff.mp contains_iff.mp hboth
      intro high hhigh
      exact UInt32.le_trans (max_low_le_iff.mpr ⟨hal, hbl⟩)
        (le_leastHigh_iff.mpr ⟨hah, hbh⟩ high hhigh)
    rw [intersect?, ofBounds?_eq_some_iff.mpr ⟨rfl, hcommon⟩] at hnone
    cases hnone
  · intro hdisjoint
    cases h : a.intersect? b with
    | none => rfl
    | some c =>
      have hlow := contains_of_intersect? h c.low
      rw [contains_low (valid_of_intersect? h), eq_comm, Bool.and_eq_true] at hlow
      exact (hdisjoint c.low hlow).elim

/-! Intersecting in any order. -/

theorem toNat_max (a b : UInt32) : (max a b).toNat = max a.toNat b.toNat := by
  have h : max a b = if a ≤ b then b else a := rfl
  rw [h]
  split
  · rename_i hle
    rw [Nat.max_eq_right (UInt32.le_iff_toNat_le.mp hle)]
  · rename_i hle
    rw [UInt32.le_iff_toNat_le] at hle
    omega

theorem toNat_min (a b : UInt32) : (min a b).toNat = min a.toNat b.toNat := by
  have h : min a b = if a ≤ b then a else b := rfl
  rw [h]
  split
  · rename_i hle
    rw [Nat.min_eq_left (UInt32.le_iff_toNat_le.mp hle)]
  · rename_i hle
    rw [UInt32.le_iff_toNat_le] at hle
    omega

theorem max_low_comm (a b : UInt32) : max a b = max b a := by
  rw [← UInt32.toNat_inj, toNat_max, toNat_max, Nat.max_comm]

theorem max_low_right_comm (a b c : UInt32) : max (max a b) c = max (max a c) b := by
  rw [← UInt32.toNat_inj]
  simp only [toNat_max]
  omega

theorem leastHigh_comm (a b : Option UInt32) : leastHigh a b = leastHigh b a := by
  cases a <;> cases b <;> simp only [leastHigh, Option.some.injEq, ← UInt32.toNat_inj, toNat_min]
  omega

theorem leastHigh_right_comm (a b c : Option UInt32) :
    leastHigh (leastHigh a b) c = leastHigh (leastHigh a c) b := by
  cases a <;> cases b <;> cases c <;>
    simp only [leastHigh, Option.some.injEq, ← UInt32.toNat_inj, toNat_min] <;> omega

theorem intersect?_comm (a b : Cardinality) : a.intersect? b = b.intersect? a := by
  rw [intersect?, intersect?, max_low_comm, leastHigh_comm]

/-- Two intersections in a row have a result exactly if the three ranges have a count in common. -/
theorem bind_intersect? (a b c : Cardinality) : (a.intersect? b).bind (·.intersect? c) =
    ofBounds? (max (max a.low b.low) c.low) (leastHigh (leastHigh a.high b.high) c.high) := by
  cases hab : a.intersect? b with
  | some d =>
    obtain ⟨rfl, -⟩ := ofBounds?_eq_some_iff.mp hab
    rfl
  | none =>
    cases habc : ofBounds? (max (max a.low b.low) c.low)
        (leastHigh (leastHigh a.high b.high) c.high) with
    | none => rfl
    | some d =>
      obtain ⟨rfl, hvalid⟩ := ofBounds?_eq_some_iff.mp habc
      have hcommon := contains_iff.mp (contains_low hvalid)
      rw [max_low_le_iff, max_low_le_iff, le_leastHigh_iff, le_leastHigh_iff] at hcommon
      obtain ⟨⟨⟨ha, hb⟩, -⟩, ⟨ha', hb'⟩, -⟩ := hcommon
      have hboth := And.intro (contains_iff.mpr ⟨ha, ha'⟩) (contains_iff.mpr ⟨hb, hb'⟩)
      exact (intersect?_eq_none_iff.mp hab _ hboth).elim

theorem intersect?_right_comm (a b c : Cardinality) :
    (a.intersect? b).bind (·.intersect? c) = (a.intersect? c).bind (·.intersect? b) := by
  rw [bind_intersect?, bind_intersect?, max_low_right_comm, leastHigh_right_comm]

/-- What is held meets one more range. -/
def meetNext (held : Option Cardinality) (c : Cardinality) : Option Cardinality :=
  held.bind (·.intersect? c)

/-- Intersects ranges one after the other, as long as they have a count in common. -/
def meet? : List Cardinality → Option Cardinality
  | [] => none
  | c :: cs => cs.foldl meetNext (some c)

theorem meetNext_right_comm (held : Option Cardinality) (c d : Cardinality) :
    meetNext (meetNext held c) d = meetNext (meetNext held d) c := by
  cases held with
  | none => rfl
  | some b => exact intersect?_right_comm b c d

theorem foldl_meetNext_none (cs : List Cardinality) : cs.foldl meetNext none = none := by
  induction cs with
  | nil => rfl
  | cons c cs ih => exact ih

theorem meet?_perm {cs ds : List Cardinality} (h : cs.Perm ds) : meet? cs = meet? ds := by
  induction h with
  | nil => rfl
  | cons c h _ => exact h.foldl_eq' (fun c _ d _ held => meetNext_right_comm held c d) (some c)
  | swap c d cs => exact congrArg (cs.foldl meetNext) (intersect?_comm d c)
  | trans _ _ ih ih' => exact ih.trans ih'

/-- Intersecting the ranges one after the other never fails. -/
def Agree (cs : List Cardinality) : Prop := cs = [] ∨ (meet? cs).isSome = true

theorem agree_perm {cs ds : List Cardinality} (h : cs.Perm ds) : Agree cs ↔ Agree ds := by
  have hnil : cs = [] ↔ ds = [] := by
    rw [← List.length_eq_zero_iff, h.length_eq, List.length_eq_zero_iff]
  rw [Agree, Agree, hnil, meet?_perm h]

theorem agree_cons_cons {a b : Cardinality} {cs : List Cardinality} :
    Agree (a :: b :: cs) ↔ ∃ c, a.intersect? b = some c ∧ Agree (c :: cs) := by
  have hmeet : meet? (a :: b :: cs) = cs.foldl meetNext (a.intersect? b) := rfl
  cases hab : a.intersect? b with
  | none => simp [Agree, hmeet, hab, foldl_meetNext_none]
  | some c =>
    rw [Agree, hmeet, hab]
    simp [Agree, meet?]

theorem contains_foldl_meetNext {cs : List Cardinality} {held b : Cardinality} {n : UInt32}
    (h : cs.foldl meetNext (some held) = some b) :
    b.contains n = true ↔ held.contains n = true ∧ ∀ c ∈ cs, c.contains n = true := by
  induction cs generalizing held with
  | nil =>
    obtain rfl := Option.some.inj h
    simp
  | cons c cs ih =>
    rw [List.foldl_cons] at h
    cases hc : held.intersect? c with
    | none =>
      rw [meetNext, Option.bind_some, hc, foldl_meetNext_none] at h
      cases h
    | some d =>
      rw [meetNext, Option.bind_some, hc] at h
      rw [ih h, contains_of_intersect? hc, Bool.and_eq_true, List.forall_mem_cons, and_assoc]

/-- The result holds exactly the counts that lie in all ranges. -/
theorem contains_meet? {cs : List Cardinality} {b : Cardinality} {n : UInt32}
    (h : meet? cs = some b) : b.contains n = true ↔ ∀ c ∈ cs, c.contains n = true := by
  cases cs with
  | nil => cases h
  | cons c cs => rw [contains_foldl_meetNext h, List.forall_mem_cons]

theorem valid_foldl_meetNext {cs : List Cardinality} {held b : Cardinality} (hheld : held.Valid)
    (h : cs.foldl meetNext (some held) = some b) : b.Valid := by
  induction cs generalizing held with
  | nil => exact Option.some.inj h ▸ hheld
  | cons c cs ih =>
    rw [List.foldl_cons] at h
    cases hc : held.intersect? c with
    | none =>
      rw [meetNext, Option.bind_some, hc, foldl_meetNext_none] at h
      cases h
    | some d =>
      rw [meetNext, Option.bind_some, hc] at h
      exact ih (valid_of_intersect? hc) h

/-- Ranges that are not empty have no empty result. -/
theorem valid_meet? {cs : List Cardinality} {b : Cardinality} (hvalid : ∀ c ∈ cs, c.Valid)
    (h : meet? cs = some b) : b.Valid := by
  cases cs with
  | nil => cases h
  | cons c cs => exact valid_foldl_meetNext (hvalid c List.mem_cons_self) h

theorem isSome_foldl_meetNext {cs : List Cardinality} {held : Cardinality} {n : UInt32}
    (hheld : held.contains n = true) (h : ∀ c ∈ cs, c.contains n = true) :
    (cs.foldl meetNext (some held)).isSome = true := by
  induction cs generalizing held with
  | nil => rfl
  | cons c cs ih =>
    obtain ⟨hc, hcs⟩ := List.forall_mem_cons.mp h
    cases hd : held.intersect? c with
    | none => exact (intersect?_eq_none_iff.mp hd n ⟨hheld, hc⟩).elim
    | some d =>
      rw [List.foldl_cons, meetNext, Option.bind_some, hd]
      refine ih ?_ hcs
      rw [contains_of_intersect? hd, hheld, hc]
      rfl

/-- Ranges that are not empty agree exactly if some count lies in all of them. -/
theorem agree_iff {cs : List Cardinality} (hvalid : ∀ c ∈ cs, c.Valid) :
    Agree cs ↔ ∃ n, ∀ c ∈ cs, c.contains n = true := by
  cases cs with
  | nil => simp [Agree]
  | cons c cs =>
    constructor
    · intro h
      obtain ⟨b, hb⟩ := Option.isSome_iff_exists.mp (h.resolve_left (List.cons_ne_nil c cs))
      exact ⟨b.low, (contains_meet? hb).mp (contains_low (valid_meet? hvalid hb))⟩
    · intro h
      obtain ⟨n, hn⟩ := h
      obtain ⟨hc, hcs⟩ := List.forall_mem_cons.mp hn
      exact .inr (isSome_foldl_meetNext hc hcs)

end Cardinality

end AttachmentGrammar
