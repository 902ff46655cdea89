import AttachmentGrammar.Proofs.SortedMap
import AttachmentGrammar.Validation
/-!
What a tally holds. Main statement: the roles that it gives out to check are the two aggregates and
the occupied others, each once, in order, with the number of attachments in that role.
-/
namespace AttachmentGrammar.Tally

variable {targets sources classes : List (Option ClassId)} {id : ClassId}

/-- The tally of a node by the classes of its targets and of its sources. -/
def ofClasses (targets sources : List (Option ClassId)) : Tally where
  outgoing := .ofNat targets.length
  incoming := .ofNat sources.length
  outgoingTo := targets.foldl countClass .empty
  incomingFrom := sources.foldl countClass .empty

def amount (targets sources : List (Option ClassId)) : Role ClassId → Nat
  | .source => targets.length
  | .target => sources.length
  | .sourceOf id => targets.count (some id)
  | .targetOf id => sources.count (some id)

theorem add_one_add_ofNat (a : UInt32) (n : Nat) : a + 1 + .ofNat n = a + .ofNat (n + 1) := by
  rw [UInt32.ofNat_add, UInt32.add_comm (.ofNat n), ← UInt32.add_assoc]
  rfl

theorem foldl_addOutgoing (classes : List (Option ClassId)) (c : Tally) :
    classes.foldl addOutgoing c = { c with
      outgoing := c.outgoing + .ofNat classes.length
      outgoingTo := classes.foldl countClass c.outgoingTo } := by
  induction classes generalizing c with
  | nil => simp
  | cons x classes ih =>
    rw [List.foldl_cons, ih, addOutgoing, add_one_add_ofNat]
    rfl

theorem foldl_addIncoming (classes : List (Option ClassId)) (c : Tally) :
    classes.foldl addIncoming c = { c with
      incoming := c.incoming + .ofNat classes.length
      incomingFrom := classes.foldl countClass c.incomingFrom } := by
  induction classes generalizing c with
  | nil => simp
  | cons x classes ih =>
    rw [List.foldl_cons, ih, addIncoming, add_one_add_ofNat]
    rfl

theorem foldl_addIncoming_foldl_addOutgoing (targets sources : List (Option ClassId)) :
    sources.foldl addIncoming (targets.foldl addOutgoing .zero) = ofClasses targets sources := by
  rw [foldl_addIncoming, foldl_addOutgoing]
  simp [ofClasses, zero]

theorem get?_foldl_countClass (classes : List (Option ClassId))
    (counts : SortedMap ClassId UInt32) (id : ClassId) :
    (classes.foldl countClass counts).get? id =
      if some id ∈ classes then
        some ((counts.get? id).getD 0 + .ofNat (classes.count (some id)))
      else counts.get? id := by
  induction classes generalizing counts with
  | nil => simp
  | cons x classes ih =>
    rw [List.foldl_cons, ih]
    cases x with
    | none => simp [countClass]
    | some k =>
      rw [countClass, SortedMap.get?_insert_eq]
      by_cases hk : id = k
      · subst hk
        by_cases hmem : some id ∈ classes
        · simp [hmem, add_one_add_ofNat]
        · simp [hmem, List.count_eq_zero.mpr hmem]
      · simp [hk, Ne.symm hk]

/-- A class has an entry exactly if it occurs, with the number of its occurrences. -/
theorem mem_foldl_countClass {n : UInt32} :
    (id, n) ∈ (classes.foldl countClass .empty).toList ↔
      0 < classes.count (some id) ∧ n = .ofNat (classes.count (some id)) := by
  rw [SortedMap.mem_toList_iff, get?_foldl_countClass, List.count_pos_iff]
  split
  · rename_i hmem
    simp [hmem, eq_comm]
  · rename_i hmem
    simp [hmem]

theorem mem_byRole {role : Role ClassId} {n : UInt32} :
    (role, n) ∈ (ofClasses targets sources).byRole ↔
      (role.isAggregate = true ∨ 0 < amount targets sources role) ∧
        n = .ofNat (amount targets sources role) := by
  cases role <;> simp [byRole, ofClasses, Role.isAggregate, amount, mem_foldl_countClass]

/-- The roles of a tally come in order, whatever was counted. -/
theorem increasing_byRole (c : Tally) :
    c.byRole.Pairwise fun a b => compare a.1 b.1 = .lt := by
  rw [byRole, List.pairwise_cons, List.pairwise_cons, List.pairwise_append]
  refine ⟨?_, ?_, List.pairwise_map.mpr c.outgoingTo.increasing,
    List.pairwise_map.mpr c.incomingFrom.increasing, ?_⟩
  · intro b hb
    rcases List.mem_cons.mp hb with rfl | hb
    · rfl
    · rcases List.mem_append.mp hb with hb | hb
      · obtain ⟨_, -, rfl⟩ := List.mem_map.mp hb
        rfl
      · obtain ⟨_, -, rfl⟩ := List.mem_map.mp hb
        rfl
  · intro b hb
    rcases List.mem_append.mp hb with hb | hb
    · obtain ⟨_, -, rfl⟩ := List.mem_map.mp hb
      rfl
    · obtain ⟨_, -, rfl⟩ := List.mem_map.mp hb
      rfl
  · intro a ha b hb
    obtain ⟨_, -, rfl⟩ := List.mem_map.mp ha
    obtain ⟨_, -, rfl⟩ := List.mem_map.mp hb
    rfl

end AttachmentGrammar.Tally
