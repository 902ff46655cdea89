import AttachmentGrammar.Role
import AttachmentGrammar.Vocabulary
/-!
Class numbers and names. Main statements: a class has a number exactly if it is known, numbers
follow the order of the names, and a pattern expands to the numbers of the names that it covers.
-/
namespace AttachmentGrammar

theorem Pattern.covers_iff_of_literal {p : Pattern} (h : p.hasWildcard = false) {name : String} :
    p.covers name = true ↔ name = p.text := by
  have hstar : wildcard ∉ p.text.toList := by simpa [hasWildcard] using h
  rw [covers, List.splitOn_eq_singleton hstar, fits, decide_eq_true_eq, String.toList_inj, eq_comm]

namespace Vocabulary

variable {v : Vocabulary} {i j : ClassId} {a b : String}

theorem id?_eq_some_iff : v.id? a = some i ↔ v.name? i = some a := by
  rw [id?, name?, List.idxOf?_eq_some_iff, List.getElem?_eq_some_iff]
  constructor
  · intro h
    obtain ⟨hi, ha, -⟩ := h
    exact ⟨hi, ha⟩
  · intro h
    obtain ⟨hi, rfl⟩ := h
    refine ⟨hi, rfl, fun j hj heq => ?_⟩
    exact Nat.ne_of_lt hj ((List.getElem_inj v.names.nodup_toList).mp heq)

theorem lt_size (h : v.name? i = some a) : i < v.size :=
  (List.getElem?_eq_some_iff.mp h).1

theorem name_eq (h : v.name? i = some a) : v.name i = a := by
  rw [name, h, Option.getD_some]

theorem mem_names_iff : a ∈ v.names ↔ ∃ i, v.name? i = some a :=
  List.mem_iff_getElem?

/-- The classes are the trimmed names, but for the empty one. -/
theorem mem_names_ofNames {names : List String} : a ∈ (ofNames names).names ↔
    a ≠ "" ∧ ∃ name ∈ names, String.ofList (Text.trim name.toList) = a := by
  rw [ofNames, SortedSet.mem_ofList, List.mem_filter, List.mem_map, decide_eq_true_eq, and_comm]

theorem contains_iff : v.contains a = true ↔ ∃ i, v.id? a = some i := by
  simp only [contains, List.contains_iff_mem, SortedSet.mem_toList, mem_names_iff, id?_eq_some_iff]

theorem contains_eq_isSome : v.contains a = (v.id? a).isSome := by
  rw [Bool.eq_iff_iff, contains_iff, Option.isSome_iff_exists]

/-- Numbers follow the order of the names. -/
theorem compare_name (hi : v.name? i = some a) (hj : v.name? j = some b)
    (h : compare i j = .lt) : compare (v.name i) (v.name j) = .lt := by
  rw [name_eq hi, name_eq hj]
  obtain ⟨hil, rfl⟩ := List.getElem?_eq_some_iff.mp hi
  obtain ⟨hjl, rfl⟩ := List.getElem?_eq_some_iff.mp hj
  exact List.pairwise_iff_getElem.mp v.names.increasing i j hil hjl (Nat.compare_eq_lt.mp h)

theorem mem_entries : (i, a) ∈ v.entries ↔ v.name? i = some a := by
  rw [entries, List.mem_map, name?]
  constructor
  · intro h
    obtain ⟨⟨b, k⟩, hm, he⟩ := h
    obtain ⟨rfl, rfl⟩ := Prod.mk.inj he
    exact List.mem_zipIdx_iff_getElem?.mp hm
  · intro h
    exact ⟨(a, i), List.mem_zipIdx_iff_getElem?.mpr h, rfl⟩

/-- A pattern expands to the classes that it covers, the literal look-up included. -/
theorem mem_expand {p : Pattern} :
    i ∈ v.expand p ↔ ∃ name, v.name? i = some name ∧ p.covers name = true := by
  cases hp : p.hasWildcard with
  | true =>
    simp only [expand, hp, if_true, List.mem_map, List.mem_filter, Prod.exists]
    constructor
    · intro h
      obtain ⟨k, name, ⟨hm, hc⟩, rfl⟩ := h
      exact ⟨name, mem_entries.mp hm, hc⟩
    · intro h
      obtain ⟨name, hname, hc⟩ := h
      exact ⟨i, name, ⟨mem_entries.mpr hname, hc⟩, rfl⟩
  | false =>
    simp only [expand, hp, Option.mem_toList, id?_eq_some_iff,
      Pattern.covers_iff_of_literal hp, exists_eq_right, Bool.false_eq_true, if_false]

theorem increasing_expand {p : Pattern} : (v.expand p).Pairwise (· < ·) := by
  have hentries : (v.entries.map (·.1)).Pairwise (· < ·) := by
    have hids : v.entries.map (·.1) = List.range' 0 v.names.toList.length := by
      rw [entries, List.map_map]
      exact List.zipIdx_map_snd 0 _
    rw [hids]
    exact List.pairwise_lt_range'
  rw [expand]
  split
  · exact hentries.sublist (List.filter_sublist.map _)
  · cases v.id? p.text <;> simp

theorem nodup_expand {p : Pattern} : (v.expand p).Nodup := increasing_expand.imp Nat.ne_of_lt

theorem filter_expand {p : Pattern} (h : v.name? i = some a) :
    (v.expand p).filter (fun id => id = i) = if p.covers a = true then [i] else [] := by
  have hmem : i ∈ v.expand p ↔ p.covers a = true := by
    simp only [mem_expand, h, Option.some.injEq, exists_eq_left']
  rw [List.filter_eq, nodup_expand.count]
  simp only [hmem]
  split <;> rfl

end Vocabulary

/-! Roles by number and by name. -/

namespace Role

variable {v : Vocabulary} {key key' : Role ClassId} {role role' : Role String}

theorem mapM?_id?_iff : role.mapM? v.id? = some key ↔ key.mapM? v.name? = some role := by
  cases role <;> cases key <;> simp [mapM?, Vocabulary.id?_eq_some_iff]

theorem isSome_mapM?_id? : (role.mapM? v.id?).isSome = role.other?.all v.contains := by
  cases role <;> simp [mapM?, other?, Vocabulary.contains_eq_isSome]

theorem map_name (h : key.mapM? v.name? = some role) : key.map v.name = role := by
  cases key <;> simp only [mapM?, Option.map_eq_some_iff, Option.some.injEq] at h
  · exact h
  · exact h
  · obtain ⟨name, hname, rfl⟩ := h
    rw [map, Vocabulary.name_eq hname]
  · obtain ⟨name, hname, rfl⟩ := h
    rw [map, Vocabulary.name_eq hname]

theorem isAggregate_mapM? (h : key.mapM? v.name? = some role) :
    key.isAggregate = role.isAggregate := by
  rw [← map_name h]
  cases key <;> rfl

/-- The order of roles by number is their order by name. -/
theorem compare_names (h : key.mapM? v.name? = some role) (h' : key'.mapM? v.name? = some role')
    (hlt : compare key key' = .lt) : compare role role' = .lt := by
  rw [← map_name h, ← map_name h']
  -- Roles of different kinds compare alike, whatever the other class is.
  cases key with
  | source => cases key' <;> exact hlt
  | target => cases key' <;> exact hlt
  | sourceOf i =>
    cases key' with
    | sourceOf j =>
      obtain ⟨a, ha, -⟩ := Option.map_eq_some_iff.mp h
      obtain ⟨b, hb, -⟩ := Option.map_eq_some_iff.mp h'
      exact Vocabulary.compare_name ha hb hlt
    | source => exact hlt
    | target => exact hlt
    | targetOf j => exact hlt
  | targetOf i =>
    cases key' with
    | targetOf j =>
      obtain ⟨a, ha, -⟩ := Option.map_eq_some_iff.mp h
      obtain ⟨b, hb, -⟩ := Option.map_eq_some_iff.mp h'
      exact Vocabulary.compare_name ha hb hlt
    | source => exact hlt
    | target => exact hlt
    | sourceOf j => exact hlt

end Role

end AttachmentGrammar
