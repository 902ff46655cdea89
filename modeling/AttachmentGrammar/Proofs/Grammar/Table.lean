import AttachmentGrammar.Proofs.Grammar.Bounds
/-!
The table of a draft by itself. Main statements: demands change the table one after the other and
clash with what it holds, whatever else a draft carries; there is no clash exactly if the ranges
asked for at every single position agree; and what a position holds is the intersection of the
demands that it took, with their lines.
-/
namespace AttachmentGrammar

open Cardinality (Agree meet? narrowest)

theorem eraseDups_concat (ns : List Nat) (n : Nat) : (ns ++ [n]).eraseDups =
    if n ∈ ns.eraseDups then ns.eraseDups else ns.eraseDups ++ [n] := by
  simp only [List.eraseDups_append, List.mem_eraseDups]
  by_cases h : n ∈ ns
  · have hremove : [n].removeAll ns = [] := by simp [List.cons_removeAll, h]
    rw [hremove, if_pos h, List.eraseDups_nil, List.append_nil]
  · have hremove : [n].removeAll ns = [n] := by simp [List.cons_removeAll, h]
    rw [hremove, if_neg h, List.eraseDups_cons, List.filter_nil, List.eraseDups_nil]

abbrev Table := SortedMap Position Entry

/-- A demand and the entry that shares no count with it. -/
structure Clash where
  demand : Demand
  held : Entry
  deriving DecidableEq

def Clash.error (v : Vocabulary) (c : Clash) : CompileError :=
  .conflictingCardinality (v.name c.demand.position.classId) (c.demand.position.role.map v.name)
    c.held.bound c.held.lines c.demand.range c.demand.line

namespace Table

variable {t : Table} {q : Demand} {qs done : List Demand} {p : Position} {v : Vocabulary}

/-- The first demand at a position is held as it is, a later one is met with what is held. -/
def settle (t : Table) (q : Demand) : Table :=
  match t.get? q.position with
  | none => t.insert q.position ⟨q.range, [q.line]⟩
  | some entry =>
    match entry.bound.intersect? q.range with
    | none => t
    | some bound => t.insert q.position
        ⟨bound, if q.line ∈ entry.lines then entry.lines else entry.lines ++ [q.line]⟩

def clash? (t : Table) (q : Demand) : Option Clash :=
  match t.get? q.position with
  | none => none
  | some entry => if entry.bound.intersect? q.range = none then some ⟨q, entry⟩ else none

def clashes (t : Table) : List Demand → List Clash
  | [] => []
  | q :: qs => (t.clash? q).toList ++ (t.settle q).clashes qs

theorem impose_eq (d : Draft) (q : Demand) : d.impose v q = { d with
    table := Table.settle d.table q
    errors := d.errors ++ (Table.clash? d.table q).toList.map (Clash.error v) } := by
  cases hq : d.table.get? q.position with
  | none => simp [Draft.impose, Draft.narrow, settle, clash?, hq]
  | some entry =>
    cases hi : entry.bound.intersect? q.range <;>
      simp [Draft.impose, Draft.narrow, settle, clash?, hq, hi, Clash.error]

theorem foldl_impose_eq (qs : List Demand) (d : Draft) : qs.foldl (Draft.impose v) d = { d with
    table := qs.foldl settle d.table
    errors := d.errors ++ (Table.clashes d.table qs).map (Clash.error v) } := by
  induction qs generalizing d with
  | nil => simp [clashes]
  | cons q qs ih => simp [ih, impose_eq, clashes, List.append_assoc]

theorem clashes_append (t : Table) (qs rest : List Demand) :
    t.clashes (qs ++ rest) = t.clashes qs ++ (qs.foldl settle t).clashes rest := by
  induction qs generalizing t with
  | nil => rfl
  | cons q qs ih => rw [List.cons_append, clashes, clashes, ih, List.append_assoc, List.foldl_cons]

theorem demand_eq_of_clash? {c : Clash} (h : t.clash? q = some c) : c.demand = q := by
  rw [clash?] at h
  split at h
  · cases h
  · split at h
    · exact Option.some.inj h ▸ rfl
    · cases h

/-- Every clash is that of one demand with the table left by the demands before it. -/
theorem mem_clashes {c : Clash} (t : Table) (qs : List Demand) : c ∈ t.clashes qs ↔
    ∃ before after, qs = before ++ c.demand :: after ∧
      (before.foldl settle t).clash? c.demand = some c := by
  constructor
  · intro h
    induction qs generalizing t with
    | nil => cases h
    | cons q qs ih =>
      rcases List.mem_append.mp h with h | h
      · have hq := Option.mem_toList.mp h
        obtain rfl := demand_eq_of_clash? hq
        exact ⟨[], qs, rfl, hq⟩
      · obtain ⟨before, after, rfl, hc⟩ := ih (t.settle q) h
        exact ⟨q :: before, after, rfl, hc⟩
  · intro h
    obtain ⟨before, after, rfl, hc⟩ := h
    rw [clashes_append, clashes, hc]
    exact List.mem_append_right _ (List.mem_cons_self)

/-! One position at a time. -/

theorem get?_settle_of_ne (h : p ≠ q.position) : (t.settle q).get? p = t.get? p := by
  rw [settle]
  split
  · rw [SortedMap.get?_insert_eq, if_neg h]
  · split
    · rfl
    · rw [SortedMap.get?_insert_eq, if_neg h]

/-- A position has an entry as soon as something is asked there, clash or not. -/
theorem isSome_get?_foldl_settle (qs : List Demand) (t : Table) (p : Position) :
    ((qs.foldl settle t).get? p).isSome = true ↔
      (t.get? p).isSome = true ∨ ∃ q ∈ qs, q.position = p := by
  have hstep (t : Table) (q : Demand) : ((t.settle q).get? p).isSome = true ↔
      (t.get? p).isSome = true ∨ q.position = p := by
    by_cases hp : p = q.position
    · subst hp
      simp only [or_true, iff_true]
      rw [settle]
      split
      · simp [SortedMap.get?_insert_eq]
      · rename_i entry hentry
        split
        · simp [hentry]
        · simp [SortedMap.get?_insert_eq]
    · rw [get?_settle_of_ne hp, or_iff_left (Ne.symm hp)]
  induction qs generalizing t with
  | nil => simp
  | cons q qs ih =>
    refine (ih (t.settle q)).trans ?_
    simp only [hstep, List.mem_cons, exists_eq_or_imp, or_assoc]

/-- The range that is held at a position, if any. -/
def held (t : Table) (p : Position) : List Cardinality := ((t.get? p).map Entry.bound).toList

theorem asked_cons_self (q : Demand) (qs : List Demand) :
    asked (q :: qs) q.position = q.range :: asked qs q.position := by
  simp [asked]

theorem asked_cons_of_ne (h : p ≠ q.position) : asked (q :: qs) p = asked qs p := by
  simp [asked, Ne.symm h]

/-- At its own position a demand clashes, or leaves the intersection to what is asked later. -/
theorem agree_held_settle (t : Table) (q : Demand) (cs : List Cardinality) :
    Agree (t.held q.position ++ q.range :: cs) ↔
      t.clash? q = none ∧ Agree ((t.settle q).held q.position ++ cs) := by
  cases hq : t.get? q.position with
  | none => simp [held, clash?, settle, hq, SortedMap.get?_insert_eq]
  | some entry =>
    cases hi : entry.bound.intersect? q.range with
    | none => simp [held, clash?, hq, hi, Cardinality.agree_cons_cons]
    | some bound =>
      simp [held, clash?, settle, hq, hi, SortedMap.get?_insert_eq, Cardinality.agree_cons_cons]

/-- Nothing clashes at a position exactly if all ranges asked for there agree. -/
theorem agree_iff_forall_clashes (t : Table) (qs : List Demand) (p : Position) :
    Agree (t.held p ++ asked qs p) ↔ ∀ c ∈ t.clashes qs, c.demand.position ≠ p := by
  induction qs generalizing t with
  | nil =>
    refine iff_of_true ?_ (fun c hc => by cases hc)
    cases hp : t.get? p with
    | none => exact .inl (by simp [held, hp, asked])
    | some entry => exact .inr (by simp [held, hp, asked, meet?])
  | cons q qs ih =>
    rw [clashes, List.forall_mem_append, ← ih]
    by_cases hp : p = q.position
    · subst hp
      rw [asked_cons_self, agree_held_settle]
      refine and_congr_left' ?_
      cases hclash : t.clash? q with
      | none => simp
      | some c => simp [demand_eq_of_clash? hclash]
    · have hfirst : ∀ c ∈ (t.clash? q).toList, c.demand.position ≠ p := by
        intro c hc heq
        rw [demand_eq_of_clash? (Option.mem_toList.mp hc)] at heq
        exact hp heq.symm
      rw [asked_cons_of_ne hp, and_iff_right hfirst, held, held, get?_settle_of_ne hp]

theorem clashes_eq_nil_iff (t : Table) (qs : List Demand) :
    t.clashes qs = [] ↔ ∀ p, Agree (t.held p ++ asked qs p) := by
  simp only [agree_iff_forall_clashes, List.eq_nil_iff_forall_not_mem]
  constructor
  · intro h p c hc
    exact (h c hc).elim
  · intro h c hc
    exact h c.demand.position c hc rfl

/-! What stands behind an entry. -/

/-- The demands at a position, in their order. -/
def demandsAt (p : Position) (qs : List Demand) : List Demand :=
  qs.filter fun q => q.position = p

end Table

open Table (demandsAt)

/-- An entry is the intersection of the demands that were taken, with their lines. -/
structure Entry.Records (entry : Entry) (taken : List Demand) : Prop where
  bound_eq : narrowest (taken.map Demand.range) = some entry.bound
  lines_eq : entry.lines = (taken.map Demand.line).eraseDups

namespace Table

variable {t : Table} {q : Demand} {qs done : List Demand} {p : Position} {entry : Entry}

/-- Every entry comes from demands at its position, the first of them included. -/
structure Sound (t : Table) (done : List Demand) : Prop where
  none_at : ∀ p, t.get? p = none → demandsAt p done = []
  some_at : ∀ p entry, t.get? p = some entry → ∃ taken, taken.Sublist (demandsAt p done) ∧
    entry.Records taken ∧ taken.head? = (demandsAt p done).head?

theorem sound_empty : Sound .empty [] := ⟨fun _ _ => rfl, nofun⟩

theorem records_singleton (q : Demand) : Entry.Records ⟨q.range, [q.line]⟩ [q] :=
  ⟨Cardinality.narrowest_singleton q.range, rfl⟩

theorem records_concat {taken : List Demand} {bound : Cardinality} (h : entry.Records taken)
    (hbound : entry.bound.intersect? q.range = some bound) :
    Entry.Records ⟨bound, if q.line ∈ entry.lines then entry.lines else entry.lines ++ [q.line]⟩
      (taken ++ [q]) := by
  constructor
  · rw [List.map_append]
    exact Cardinality.narrowest_concat h.bound_eq hbound
  · rw [List.map_append, List.map_singleton, eraseDups_concat, ← h.lines_eq]

theorem sound_settle (h : t.Sound done) (q : Demand) : (t.settle q).Sound (done ++ [q]) := by
  have hothers (p : Position) (hp : p ≠ q.position) :
      demandsAt p (done ++ [q]) = demandsAt p done := by
    simp [demandsAt, Ne.symm hp]
  have hself : demandsAt q.position (done ++ [q]) = demandsAt q.position done ++ [q] := by
    simp [demandsAt]
  -- the entry at the position of the demand, if there is one before
  have hentry : ∃ entry taken, (t.settle q).get? q.position = some entry ∧
      taken.Sublist (demandsAt q.position done ++ [q]) ∧ entry.Records taken ∧
        taken.head? = (demandsAt q.position done ++ [q]).head? := by
    cases hq : t.get? q.position with
    | none =>
      rw [h.none_at _ hq]
      refine ⟨⟨q.range, [q.line]⟩, [q], ?_, List.Sublist.refl _, records_singleton q, rfl⟩
      simp [settle, hq, SortedMap.get?_insert_eq]
    | some old =>
      obtain ⟨taken, hsub, hrecords, hhead⟩ := h.some_at _ _ hq
      have hfirst (rest : List Demand) : (taken ++ rest).head? =
          (demandsAt q.position done ++ [q]).head? := by
        cases taken with
        | nil => cases hrecords.bound_eq
        | cons first taken => simp [← hhead]
      cases hi : old.bound.intersect? q.range with
      | none =>
        refine ⟨old, taken, ?_, hsub.trans (List.sublist_append_left _ _), hrecords, ?_⟩
        · simp [settle, hq, hi]
        · simpa using hfirst []
      | some bound =>
        refine ⟨_, taken ++ [q], ?_, hsub.append (List.Sublist.refl _),
          records_concat hrecords hi, hfirst [q]⟩
        simp [settle, hq, hi, SortedMap.get?_insert_eq]
  obtain ⟨entry, taken, hget, hsub, hrecords, hhead⟩ := hentry
  constructor
  · intro p hp
    by_cases hpq : p = q.position
    · rw [hpq, hget] at hp
      cases hp
    · rw [hothers p hpq]
      exact h.none_at p (get?_settle_of_ne hpq ▸ hp)
  · intro p entry' hp
    by_cases hpq : p = q.position
    · subst hpq
      obtain rfl := Option.some.inj (hget.symm.trans hp)
      rw [hself]
      exact ⟨taken, hsub, hrecords, hhead⟩
    · rw [hothers p hpq]
      exact h.some_at p entry' (get?_settle_of_ne hpq ▸ hp)

theorem sound_foldl_settle (h : t.Sound done) (qs : List Demand) :
    (qs.foldl settle t).Sound (done ++ qs) := by
  induction qs generalizing t done with
  | nil => simpa using h
  | cons q qs ih =>
    rw [List.append_cons]
    exact ih (sound_settle h q)

end Table

end AttachmentGrammar
