import Mathlib.Data.List.Basic
import AttachmentGrammar.SortedMap
import AttachmentGrammar.SortedSet
/-!
What a sorted map shows at one key. Main statements: lists drawn from two maps entry by entry are
equal as soon as they are equal at every key, and the part of such a list that belongs to one key is
what the entry at that key gives.
-/
namespace AttachmentGrammar

theorem flatMap_if {α β : Type} (p : α → Prop) [DecidablePred p] (f : α → List β) (items : List α) :
    items.flatMap (fun a => if p a then f a else []) = (items.filter fun a => p a).flatMap f := by
  induction items with
  | nil => rfl
  | cons a items ih => by_cases ha : p a <;> simp [ha, ih]

theorem sorted_mergeSort {α κ : Type} [Ord κ] [Std.TransOrd κ] (key : α → κ) (items : List α) :
    (items.mergeSort fun a b => (compare (key a) (key b)).isLE).Pairwise fun a b =>
      (compare (key a) (key b)).isLE := by
  have htotal (a b : α) :
      ((compare (key a) (key b)).isLE || (compare (key b) (key a)).isLE) = true := by
    have hswap : compare (key b) (key a) = (compare (key a) (key b)).swap :=
      Std.OrientedCmp.eq_swap
    rw [hswap]
    cases compare (key a) (key b) <;> rfl
  exact List.pairwise_mergeSort (fun a b c => Std.TransCmp.isLE_trans) htotal items

namespace SortedMap

variable {κ α β γ : Type}

theorem flatMap_nonempty (parts : List (κ × List γ)) :
    (parts.filter fun p => !p.2.isEmpty).flatMap (·.2) = parts.flatMap (·.2) := by
  induction parts with
  | nil => rfl
  | cons p rest ih =>
    obtain ⟨k, items⟩ := p
    cases items <;> simp [ih]

variable [Ord κ]

theorem get?_mapValues (f : α → β) (m : SortedMap κ α) (k : κ) :
    (m.mapValues f).get? k = (m.get? k).map f := by
  have h (entries : List (κ × α)) :
      lookup k (entries.map fun e => (e.1, f e.2)) = (lookup k entries).map f := by
    induction entries with
    | nil => rfl
    | cons e rest ih =>
      by_cases hk : compare k e.1 = .eq <;> simp [lookup, hk, ih]
  exact h m.toList

/-- The keys that give something, with what they give. -/
def parts (m : SortedMap κ α) (f : κ × α → List γ) : List (κ × List γ) :=
  (m.toList.map fun e => (e.1, f e)).filter fun p => !p.2.isEmpty

theorem increasing_parts (m : SortedMap κ α) (f : κ × α → List γ) : Increasing (m.parts f) := by
  apply List.Pairwise.filter
  rw [List.pairwise_map]
  exact m.increasing

theorem increasing_keys (m : SortedMap κ α) : m.keys.Pairwise fun a b => compare a b = .lt :=
  List.pairwise_map.mpr m.increasing

/-- What the entries give, where each gives only items of its own key, is in the order of the keys,
and under one key in the order that the entry gives. -/
theorem pairwise_flatMap_toList (m : SortedMap κ α) (f : κ × α → List γ) (key : γ → κ)
    {before : γ → γ → Prop} (hkey : ∀ e ∈ m.toList, ∀ x ∈ f e, key x = e.1)
    (hbefore : ∀ e ∈ m.toList, (f e).Pairwise before) :
    (m.toList.flatMap f).Pairwise fun x y =>
      compare (key x) (key y) = .lt ∨ key x = key y ∧ before x y := by
  rw [List.pairwise_flatMap]
  constructor
  · intro e he
    refine (hbefore e he).imp_of_mem fun {x y} hx hy hxy => .inr ⟨?_, hxy⟩
    rw [hkey e he x hx, hkey e he y hy]
  · refine m.increasing.imp_of_mem fun {d e} hd he hlt x hx y hy => .inl ?_
    rw [hkey d hd x hx, hkey e he y hy]
    exact hlt

/-- Where each step settles its own key, a run of them settles the keys that it names. -/
theorem get?_foldl_of_step [DecidableEq κ] {step : SortedMap κ α → κ → SortedMap κ α}
    {found : κ → Option α}
    (h : ∀ m k k', (step m k).get? k' = if k' = k then found k else m.get? k')
    (m : SortedMap κ α) (keys : List κ) (k : κ) :
    (keys.foldl step m).get? k = if k ∈ keys then found k else m.get? k := by
  induction keys generalizing m with
  | nil => simp
  | cons key keys ih =>
    rw [List.foldl_cons, ih, h]
    by_cases hk : k = key
    · subst hk
      simp
    · simp [hk]

variable [Std.LawfulEqOrd κ]

theorem filter_key [DecidableEq κ] (m : SortedMap κ α) (k : κ) :
    m.toList.filter (fun e => e.1 = k) = ((m.get? k).map fun v => (k, v)).toList := by
  have h (entries : List (κ × α)) (hi : Increasing entries) :
      entries.filter (fun e => e.1 = k) = ((lookup k entries).map fun v => (k, v)).toList := by
    induction entries with
    | nil => rfl
    | cons e rest ih =>
      obtain ⟨q, w⟩ := e
      have hrest := (List.pairwise_cons.mp hi).1
      by_cases hk : q = k
      · subst hk
        have hnone : rest.filter (fun e => e.1 = q) = [] := by
          rw [List.filter_eq_nil_iff]
          intro e he heq
          have hlt := hrest e he
          rw [of_decide_eq_true heq, Std.compare_self] at hlt
          cases hlt
        simp [lookup, hnone, Std.compare_self]
      · have hne : compare k q ≠ .eq := fun h => hk (Std.LawfulEqOrd.eq_of_compare h).symm
        simpa [lookup, hk, hne] using ih (List.pairwise_cons.mp hi).2
  exact h m.toList m.increasing

/-- What the entries give, where each gives only items of its own key, is cut at one key. -/
theorem filter_flatMap_toList [DecidableEq κ] (m : SortedMap κ α) (f : κ × α → List γ) (key : γ → κ)
    (h : ∀ e ∈ m.toList, ∀ x ∈ f e, key x = e.1) (k : κ) :
    (m.toList.flatMap f).filter (fun x => key x = k) =
      ((m.get? k).map fun v => f (k, v)).getD [] := by
  have cut (e : κ × α) (hm : e ∈ m.toList) :
      (f e).filter (fun x => key x = k) = if e.1 = k then f e else [] := by
    by_cases he : e.1 = k
    · rw [if_pos he, List.filter_eq_self]
      exact fun x hx => decide_eq_true ((h e hm x hx).trans he)
    · rw [if_neg he, List.filter_eq_nil_iff]
      exact fun x hx hk => he ((h e hm x hx).symm.trans (of_decide_eq_true hk))
  rw [List.filter_flatMap, List.flatMap_congr cut, flatMap_if, filter_key]
  cases m.get? k <;> simp

variable [Std.TransOrd κ]

section Decidable

variable [DecidableEq κ]

theorem get?_insert_eq (m : SortedMap κ α) (k k' : κ) (v : α) :
    (m.insert k v).get? k' = if k' = k then some v else m.get? k' := by
  simp only [get?_insert, Std.LawfulEqCmp.compare_eq_iff_eq]

theorem get?_erase_eq (m : SortedMap κ α) (k k' : κ) :
    (m.erase k).get? k' = if k' = k then none else m.get? k' := by
  simp only [get?_erase, Std.LawfulEqCmp.compare_eq_iff_eq]

theorem get?_modify_eq (m : SortedMap κ α) (k k' : κ) (f : α → α) :
    (m.modify k f).get? k' = if k' = k then (m.get? k).map f else m.get? k' := by
  simp only [get?_modify, Std.LawfulEqCmp.compare_eq_iff_eq]

theorem get?_modifyD_eq (m : SortedMap κ α) (k k' : κ) (fresh : α) (f : α → α) :
    (m.modifyD k fresh f).get? k' =
      if k' = k then some (f ((m.get? k).getD fresh)) else m.get? k' :=
  get?_insert_eq m k k' _

/-- The last entry for a key counts. -/
theorem get?_foldl_insert (m : SortedMap κ α) (entries : List (κ × α)) (k : κ) :
    (entries.foldl (fun m e => m.insert e.1 e.2) m).get? k =
      ((entries.filter fun e => e.1 = k).getLast?.map (·.2)).or (m.get? k) := by
  induction entries generalizing m with
  | nil => rfl
  | cons e rest ih =>
    rw [List.foldl_cons, ih, get?_insert_eq]
    by_cases hk : e.1 = k
    · cases hl : (rest.filter fun e => e.1 = k).getLast? <;>
        simp [hk, List.getLast?_cons, hl]
    · simp [hk, Ne.symm hk]

theorem get?_ofList (entries : List (κ × α)) (k : κ) :
    (ofList entries).get? k = (entries.filter fun e => e.1 = k).getLast?.map (·.2) := by
  simp [ofList, get?_foldl_insert]

end Decidable

theorem mem_parts {m : SortedMap κ α} {f : κ × α → List γ} {k : κ} {items : List γ} :
    (k, items) ∈ m.parts f ↔
      ((m.get? k).map fun v => f (k, v)).getD [] = items ∧ items ≠ [] := by
  have hmem : (k, items) ∈ m.toList.map (fun e => (e.1, f e)) ↔
      ∃ v, m.get? k = some v ∧ f (k, v) = items := by
    simp only [List.mem_map, Prod.mk.injEq, Prod.exists]
    constructor
    · intro h
      obtain ⟨k', v, hm, rfl, rfl⟩ := h
      exact ⟨v, mem_toList_iff.mp hm, rfl⟩
    · intro h
      obtain ⟨v, hv, rfl⟩ := h
      exact ⟨k, v, mem_toList_iff.mpr hv, rfl, rfl⟩
  rw [parts, List.mem_filter, hmem]
  cases hk : m.get? k with
  | none =>
    refine ⟨fun h => ?_, fun h => (h.2 h.1.symm).elim⟩
    obtain ⟨⟨v, hv, -⟩, -⟩ := h
    cases hv
  | some v => simp

theorem mem_keys {m : SortedMap κ α} {k : κ} : k ∈ m.keys ↔ (m.get? k).isSome = true := by
  rw [keys, List.mem_map, Option.isSome_iff_exists]
  constructor
  · intro h
    obtain ⟨⟨k, v⟩, he, rfl⟩ := h
    exact ⟨v, mem_toList_iff.mp he⟩
  · intro h
    obtain ⟨v, hv⟩ := h
    exact ⟨(k, v), mem_toList_iff.mpr hv, rfl⟩

theorem keys_eq {m : SortedMap κ α} {m' : SortedMap κ β}
    (h : ∀ k, (m.get? k).isSome = (m'.get? k).isSome) : m.keys = m'.keys :=
  SortedSet.eq_toList (s := ⟨m'.keys, m'.increasing_keys⟩) m.increasing_keys fun k => by
    rw [mem_keys, h]
    exact mem_keys.symm

theorem flatMap_toList_congr {m : SortedMap κ α} {m' : SortedMap κ β} {f : κ × α → List γ}
    {f' : κ × β → List γ}
    (h : ∀ k, ((m.get? k).map fun v => f (k, v)).getD [] =
      ((m'.get? k).map fun v => f' (k, v)).getD []) :
    m.toList.flatMap f = m'.toList.flatMap f' := by
  have hparts : m.parts f = m'.parts f' :=
    entries_ext (increasing_parts m f) (increasing_parts m' f') fun p => by
      obtain ⟨k, items⟩ := p
      rw [mem_parts, mem_parts, h]
  have hflat : ∀ {δ : Type} (m : SortedMap κ δ) (f : κ × δ → List γ),
      (m.parts f).flatMap (·.2) = m.toList.flatMap f := by
    intro δ m f
    rw [parts, flatMap_nonempty, List.flatMap_map]
  rw [← hflat m f, hparts, hflat m' f']

end SortedMap

end AttachmentGrammar
