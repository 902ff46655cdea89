import Mathlib.Data.List.Pairwise
import AttachmentGrammar.Proofs.Cardinality
/-!
Ranges that overlap. Main statements: ranges of which every two have a count in common have one that
lies in all of them; and intersecting ranges one after the other gives the counts that they have in
common, in any order, and fails only if there are none.
-/
namespace AttachmentGrammar

namespace Cardinality

variable {cs : List Cardinality}

/-- Two ranges have a count in common. -/
def Overlaps (c d : Cardinality) : Prop := ∃ n, c.contains n = true ∧ d.contains n = true

instance : Std.Symm Overlaps where
  symm _ _ h := by
    obtain ⟨n, hc, hd⟩ := h
    exact ⟨n, hd, hc⟩

theorem overlaps_self {c : Cardinality} (h : c.Valid) : c.Overlaps c :=
  ⟨c.low, contains_low h, contains_low h⟩

theorem low_le_of_overlaps {c d : Cardinality} (h : c.Overlaps d) :
    ∀ high ∈ d.high, c.low ≤ high := by
  intro high hhigh
  obtain ⟨n, hc, hd⟩ := h
  exact UInt32.le_trans (contains_iff.mp hc).1 ((contains_iff.mp hd).2 high hhigh)

/-- The greatest of the least counts lies in all ranges: the range that it comes from overlaps each
of the others, and so none of them ends below it. -/
theorem exists_contains_of_overlaps (hvalid : ∀ c ∈ cs, c.Valid) (h : cs.Pairwise Overlaps) :
    ∃ n, ∀ c ∈ cs, c.contains n = true := by
  cases hlow : (cs.map low).max? with
  | none =>
    obtain rfl := List.map_eq_nil_iff.mp (List.max?_eq_none_iff.mp hlow)
    exact ⟨0, nofun⟩
  | some greatest =>
    obtain ⟨hmem, hle⟩ := List.max?_eq_some_iff.mp hlow
    obtain ⟨c, hc, rfl⟩ := List.mem_map.mp hmem
    refine ⟨c.low, fun d hd => contains_iff.mpr ⟨hle d.low (List.mem_map_of_mem hd), ?_⟩⟩
    have hoverlaps : c.Overlaps d :=
      h.forall_of_forall (fun c hc => overlaps_self (hvalid c hc)) hc hd
    exact low_le_of_overlaps hoverlaps

theorem isSome_meet?_iff (hne : cs ≠ []) (hvalid : ∀ c ∈ cs, c.Valid) :
    (meet? cs).isSome = true ↔ ∃ n, ∀ c ∈ cs, c.contains n = true := by
  rw [← agree_iff hvalid, Agree, or_iff_right hne]

/-- Intersecting ranges that are not empty, one after the other, gives one result in every order.
There is none exactly if no count lies in all ranges; otherwise it is a range that is not empty and
holds just those counts. Where every two of the ranges overlap there is a result. -/
theorem meet?_any_order (hne : cs ≠ []) (hvalid : ∀ c ∈ cs, c.Valid) :
    (∀ ds, ds.Perm cs → meet? ds = meet? cs) ∧
    (meet? cs = none ↔ ¬∃ n, ∀ c ∈ cs, c.contains n = true) ∧
    (∀ b, meet? cs = some b →
      b.Valid ∧ ∀ n, b.contains n = true ↔ ∀ c ∈ cs, c.contains n = true) ∧
    (cs.Pairwise Overlaps → ∃ b, meet? cs = some b) := by
  refine ⟨fun ds h => meet?_perm h, ?_, fun b hb => ?_, fun h => ?_⟩
  · rw [← isSome_meet?_iff hne hvalid, Bool.not_eq_true, Option.isSome_eq_false_iff,
      Option.isNone_iff_eq_none]
  · exact ⟨valid_meet? hvalid hb, fun n => contains_meet? hb⟩
  · have hcommon := exists_contains_of_overlaps hvalid h
    exact Option.isSome_iff_exists.mp ((isSome_meet?_iff hne hvalid).mpr hcommon)

/-- Two ranges open above, of which one holds the last count alone, and one with two ends. -/
def dockRanges : List Cardinality := [.atLeast 3, .atLeast 4294967295, ⟨7, some 4294967295⟩]

theorem meet?_any_order_dock : dockRanges ≠ [] ∧ (∀ c ∈ dockRanges, c.Valid) ∧
    dockRanges.Pairwise Overlaps ∧ (∃ b, meet? dockRanges = some b) ∧
    meet? dockRanges.reverse = some (.exactly 4294967295) ∧
    ∀ n, (exactly 4294967295).contains n = true ↔ ∀ c ∈ dockRanges, c.contains n = true := by
  have hne : dockRanges ≠ [] := List.cons_ne_nil _ _
  have hvalid : ∀ c ∈ dockRanges, c.Valid := by decide
  have hlast : ∀ c ∈ dockRanges, c.contains 4294967295 = true := by decide
  have hoverlaps : dockRanges.Pairwise Overlaps :=
    List.pairwise_of_forall_mem_list fun c hc d hd => ⟨4294967295, hlast c hc, hlast d hd⟩
  have hmeet : meet? dockRanges = some (.exactly 4294967295) := by decide
  obtain ⟨hperm, -, hsome, hexists⟩ := meet?_any_order hne hvalid
  exact ⟨hne, hvalid, hoverlaps, hexists hoverlaps,
    (hperm _ (List.reverse_perm _)).trans hmeet, (hsome _ hmeet).2⟩

/-- It is not enough that neighbours overlap. -/
example : meet? [⟨1, some 2⟩, ⟨2, some 3⟩, ⟨3, some 4⟩] = none := by decide

end Cardinality

end AttachmentGrammar
