import AttachmentGrammar.Proofs.SortedMap
import AttachmentGrammar.Proofs.Text.Lines
import AttachmentGrammar.Proofs.Vocabulary
/-!
The numbers of the classes. Main statement: whatever names are given, the classes are the trimmed
names that are not empty, sorted and each once; their numbers are their places, found by name as by
an index, in the order of the names; and neither the order of the given names nor repetitions nor
blanks around them matter.
-/
namespace AttachmentGrammar

/-! Sorting. -/

section Sorting

variable {α : Type} {a b : α} {items : List α}

/-- An item that differs from the first of a sorted list is below all, if it is not above. -/
theorem lt_of_sorted_cons [Ord α] [Std.TransOrd α] [Std.LawfulEqOrd α]
    (h : (b :: items).Pairwise fun a b => (compare a b).isLE)
    (hhead : items.head? ≠ some b) : ∀ a ∈ items, compare b a = .lt := by
  obtain ⟨hb, hitems⟩ := List.pairwise_cons.mp h
  cases items with
  | nil =>
    intro a ha
    cases ha
  | cons first rest =>
    have hfirst : compare b first = .lt := by
      rcases Ordering.isLE_iff_eq_lt_or_eq_eq.mp (hb first List.mem_cons_self) with hlt | heq
      · exact hlt
      · rw [Std.LawfulEqCmp.compare_eq_iff_eq] at heq
        exact (hhead (congrArg some heq.symm)).elim
    intro a ha
    rcases List.mem_cons.mp ha with rfl | ha
    · exact hfirst
    · exact Std.TransCmp.lt_of_lt_of_isLE hfirst ((List.pairwise_cons.mp hitems).1 a ha)

variable [DecidableEq α]

/-- Leaves out an item that stands right before an equal one. -/
def dropRepeats : List α → List α
  | [] => []
  | a :: items => if items.head? = some a then dropRepeats items else a :: dropRepeats items

theorem mem_dropRepeats : a ∈ dropRepeats items ↔ a ∈ items := by
  induction items with
  | nil => rfl
  | cons b items ih =>
    rw [dropRepeats, List.mem_cons]
    split
    · rename_i hhead
      have hb : b ∈ items := List.mem_of_mem_head? hhead
      rw [ih]
      exact ⟨.inr, fun h => h.elim (fun hab => hab ▸ hb) id⟩
    · rw [List.mem_cons, ih]

variable [Ord α] [Std.TransOrd α] [Std.LawfulEqOrd α]

theorem increasing_dropRepeats (h : items.Pairwise fun a b => (compare a b).isLE) :
    (dropRepeats items).Pairwise fun a b => compare a b = .lt := by
  induction items with
  | nil => exact .nil
  | cons b items ih =>
    have hitems := ih (List.pairwise_cons.mp h).2
    rw [dropRepeats]
    split
    · exact hitems
    · rename_i hhead
      refine List.pairwise_cons.mpr ⟨fun a ha => ?_, hitems⟩
      exact lt_of_sorted_cons h hhead a (mem_dropRepeats.mp ha)

/-- Sorts, and keeps one of equal items. -/
def sortOnce (items : List α) : List α :=
  dropRepeats (items.mergeSort fun a b => (compare a b).isLE)

theorem SortedSet.toList_ofList_eq (items : List α) : (ofList items).toList = sortOnce items := by
  symm
  apply eq_toList
  · exact increasing_dropRepeats (sorted_mergeSort id items)
  · intro a
    rw [sortOnce, mem_dropRepeats, List.mem_mergeSort, mem_ofList]

end Sorting

namespace Vocabulary

variable {v : Vocabulary} {names names' : List String} {a b : String} {i j : ClassId}

/-! Numbers. -/

/-- The places of the names, entered one after the other. -/
def index (v : Vocabulary) : SortedMap String ClassId := .ofList v.names.toList.zipIdx

theorem get?_index (v : Vocabulary) (a : String) : v.index.get? a = v.id? a := by
  rw [index, SortedMap.get?_ofList]
  cases hlast : (v.names.toList.zipIdx.filter fun entry => entry.1 = a).getLast? with
  | none =>
    rw [Option.map_none, eq_comm, Option.eq_none_iff_forall_ne_some]
    intro i hi
    have hmem : (a, i) ∈ v.names.toList.zipIdx.filter fun entry => entry.1 = a :=
      List.mem_filter.mpr ⟨List.mem_zipIdx_iff_getElem?.mpr (id?_eq_some_iff.mp hi), by simp⟩
    rw [List.getLast?_eq_none_iff.mp hlast] at hmem
    cases hmem
  | some entry =>
    obtain ⟨hmem, hname⟩ := List.mem_filter.mp (List.mem_of_getLast? hlast)
    obtain rfl := of_decide_eq_true hname
    exact (id?_eq_some_iff.mpr (List.mem_zipIdx_iff_getElem?.mp hmem)).symm

theorem lt_iff_lt (hi : v.id? a = some i) (hj : v.id? b = some j) : i < j ↔ a < b := by
  rw [id?_eq_some_iff] at hi hj
  have hbelow {k l : ClassId} {c d : String} (hk : v.name? k = some c) (hl : v.name? l = some d)
      (h : k < l) : compare c d = .lt := by
    have hcompare := compare_name hk hl (Nat.compare_eq_lt.mpr h)
    rwa [name_eq hk, name_eq hl] at hcompare
  have horder : a < b ↔ compare a b = .lt := compareOfLessAndEq_eq_lt.symm
  rw [horder]
  refine ⟨hbelow hi hj, fun hlt => ?_⟩
  rcases Nat.lt_trichotomy i j with hij | rfl | hji
  · exact hij
  · obtain rfl := Option.some.inj (hi.symm.trans hj)
    rw [Std.compare_self] at hlt
    cases hlt
  · exact (Std.OrientedCmp.not_lt_of_lt hlt (hbelow hj hi hji)).elim

/-! The names that are given. -/

def cleaned (name : String) : String := .ofList (Text.trim name.toList)

theorem ofNames_eq (names : List String) :
    ofNames names = ⟨.ofList ((names.map cleaned).filter (· ≠ ""))⟩ := rfl

theorem ofNames_congr (h : ∀ a, a ∈ names.map cleaned ↔ a ∈ names'.map cleaned) :
    ofNames names = ofNames names' := by
  rw [ofNames_eq, ofNames_eq]
  refine congrArg mk (SortedSet.ext fun a => ?_)
  rw [SortedSet.mem_ofList, SortedSet.mem_ofList, List.mem_filter, List.mem_filter, h]

/-- The same names in another order, some of them again, or with blanks around them. -/
inductive Restated : List String → List String → Prop
  | reordered {names names' : List String} : names.Perm names' → Restated names names'
  | repeated {name : String} {names : List String} : name ∈ names → Restated names (name :: names)
  | padded {before after : List Char} (name : String) (names : List String) :
    (∀ c ∈ before, Text.isBlank c = true) → (∀ c ∈ after, Text.isBlank c = true) →
      Restated (name :: names) (.ofList (before ++ name.toList ++ after) :: names)
  | symm {names names' : List String} : Restated names names' → Restated names' names
  | trans {names names' names'' : List String} :
    Restated names names' → Restated names' names'' → Restated names names''

theorem Restated.mem_cleaned (h : Restated names names') :
    a ∈ names.map cleaned ↔ a ∈ names'.map cleaned := by
  induction h with
  | reordered hperm => exact (hperm.map cleaned).mem_iff
  | repeated hname =>
    rw [List.map_cons, List.mem_cons]
    refine ⟨.inr, fun h => h.elim (fun heq => ?_) id⟩
    exact heq ▸ List.mem_map_of_mem hname
  | padded name names hbefore hafter =>
    have hclean {before after : List Char} (hbefore : ∀ c ∈ before, Text.isBlank c = true)
        (hafter : ∀ c ∈ after, Text.isBlank c = true) :
        cleaned (.ofList (before ++ name.toList ++ after)) = cleaned name := by
      rw [cleaned, String.toList_ofList, Text.trim_append_blank hafter,
        Text.trim_blank_append hbefore, cleaned]
    rw [List.map_cons, List.map_cons, hclean hbefore hafter]
  | symm _ ih => exact ih.symm
  | trans _ _ ih ih' => exact ih.trans ih'

/-- What the numbers of the classes say of the names that are given. -/
structure Numbers (v : Vocabulary) (names : List String) : Prop where
  mem_names_iff : ∀ a, a ∈ v.names ↔ a ≠ "" ∧ ∃ name ∈ names, cleaned name = a
  increasing : v.names.toList.Pairwise (· < ·)
  id?_iff : ∀ a i, v.id? a = some i ↔ v.names.toList[i]? = some a
  name?_id? : ∀ a, a ∈ v.names → ∃ i, v.id? a = some i ∧ v.name? i = some a
  lt_iff : ∀ a b i j, v.id? a = some i → v.id? b = some j → (i < j ↔ a < b)

theorem numbers_ofNames (names : List String) : (ofNames names).Numbers names where
  mem_names_iff a := mem_names_ofNames
  increasing := (ofNames names).names.increasing.imp compareOfLessAndEq_eq_lt.mp
  id?_iff a i := id?_eq_some_iff
  name?_id? a ha := by
    obtain ⟨i, hi⟩ := Vocabulary.mem_names_iff.mp ha
    exact ⟨i, id?_eq_some_iff.mpr hi, hi⟩
  lt_iff a b i j := lt_iff_lt

theorem ofClassList_eq (text : String) : ofClassList text = ofNames
    (((Text.lines text.toList).filter fun line => (Text.trim line).head? ≠ some '#').map
      String.ofList) := by
  have hcleaned (line : List Char) : cleaned (.ofList (Text.trim line)) = cleaned (.ofList line) := by
    rw [cleaned, String.toList_ofList, Text.trim_trim, cleaned, String.toList_ofList]
  refine ofNames_congr fun a => ?_
  rw [List.filter_map, List.map_map, List.map_map, List.map_map]
  simp only [Function.comp_def, hcleaned]

/-- The classes of a list of names are numbered in order, which depends only on what names there
are; a text gives the names on its lines. -/
theorem ofNames_numbers (names : List String) :
    (ofNames names).Numbers names ∧
    (ofNames names).names.toList = sortOnce ((names.map cleaned).filter (· ≠ "")) ∧
    (∀ a, (ofNames names).index.get? a = (ofNames names).id? a) ∧
    (∀ names', Restated names names' → ofNames names' = ofNames names) ∧
    ∀ text : String, ofClassList text =
      ofNames (((Text.lines text.toList).filter fun line =>
        (Text.trim line).head? ≠ some '#').map String.ofList) := by
  refine ⟨numbers_ofNames names, SortedSet.toList_ofList_eq _, get?_index _, ?_, ofClassList_eq⟩
  exact fun names' h => (ofNames_congr fun a => h.mem_cleaned).symm

example : (ofClassList " pump
# valves

duct 
pump").names.toList = ["duct", "pump"] := by
  decide +kernel

end Vocabulary

end AttachmentGrammar
