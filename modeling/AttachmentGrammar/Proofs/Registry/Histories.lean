import Mathlib.Data.List.Basic
import AttachmentGrammar.Proofs.SortedMap
import AttachmentGrammar.Registry
/-!
A registry read through its histories. Main statements: what each operation does to the history of
every name, that histories tell two registries apart, and that compiling all latest texts anew acts
on each name by itself.
-/
namespace AttachmentGrammar

def Numbered (history : List Version) : Prop :=
  history.map (·.number) = List.range' 1 history.length

theorem numbered_nil : Numbered [] := rfl

theorem numbered_concat {history : List Version} {version : Version} :
    Numbered (history ++ [version]) ↔ Numbered history ∧ version.number = history.length + 1 := by
  rw [Numbered, Numbered, List.map_append, List.length_append, List.length_singleton,
    List.range'_concat, List.map_singleton]
  constructor
  · intro h
    obtain ⟨hearlier, hlast⟩ := List.append_inj' h rfl
    have := List.singleton_inj.mp hlast
    exact ⟨hearlier, by omega⟩
  · intro h
    obtain ⟨hearlier, hlast⟩ := h
    rw [hearlier, hlast, Nat.one_mul, Nat.add_comm 1]

theorem Numbered.nextNumber_eq {history : List Version} (h : Numbered history) :
    Registry.nextNumber history = history.length + 1 := by
  rcases List.eq_nil_or_concat history with rfl | ⟨earlier, last, rfl⟩
  · rfl
  · rw [List.concat_eq_append] at h ⊢
    simp [Registry.nextNumber, (numbered_concat.mp h).2]

namespace Registry

variable {r r' : Registry} {name : String} {v : Vocabulary} {strict : Bool}

/-! Single operations. -/

theorem history_append (name source : String) (compiled : Compilation) (other : String) :
    (r.append name source compiled).2.history other =
      if other = name then r.history name ++ [(r.append name source compiled).1]
      else r.history other := by
  simp only [append, history, SortedMap.get?_insert_eq]
  split <;> rfl

theorem history_remove (name other : String) :
    (r.remove name).2.history other = if other = name then [] else r.history other := by
  simp only [remove, history, SortedMap.get?_erase_eq]
  split <;> rfl

theorem current_eq_ok {version : Version}
    (h : r.latest? name = some version) : r.current name = .ok version.compiled.grammar := by
  rw [current, h]

theorem current_eq_error_iff :
    r.current name = .error (.unregistered name) ↔ r.history name = [] := by
  rw [← List.getLast?_eq_none_iff, ← latest?]
  cases hlatest : r.latest? name with
  | none => simp [current, hlatest]
  | some version => simp [current_eq_ok hlatest]

theorem install_eq_ok {source : String} {compiled : Compilation}
    (h : Compilation.ofText source v strict = .ok compiled) :
    r.install name source v strict = .ok (r.append name source compiled) := by
  rw [install, h]
  rfl

theorem install_eq_error {source : String} {e : GrammarError}
    (h : Compilation.ofText source v strict = .error e) :
    r.install name source v strict = .error e := by
  rw [install, h]
  rfl

/-! Names are listed only together with versions. -/

def Occupied (r : Registry) : Prop := ∀ name, r.histories.get? name ≠ some []

theorem Occupied.get?_eq (h : r.Occupied) (name : String) :
    r.histories.get? name = if r.history name = [] then none else some (r.history name) := by
  have hne := h name
  cases hget : r.histories.get? name with
  | none => simp [history, hget]
  | some versions =>
    have : versions ≠ [] := fun hnil => hne (by rw [hget, hnil])
    simp [history, hget, this]

theorem ext_history (h : r.Occupied) (h' : r'.Occupied)
    (heq : ∀ name, r.history name = r'.history name) : r = r' := by
  have hhistories : r.histories = r'.histories :=
    SortedMap.ext_get? fun name => by rw [h.get?_eq, h'.get?_eq, heq]
  cases r
  cases r'
  exact congrArg _ hhistories

theorem Occupied.mem_names (h : r.Occupied) : name ∈ r.names ↔ r.history name ≠ [] := by
  rw [names, SortedMap.mem_keys, h.get?_eq]
  by_cases hnil : r.history name = [] <;> simp [hnil]

theorem Occupied.mem_names_iff_latest? (h : r.Occupied) :
    name ∈ r.names ↔ ∃ latest, r.latest? name = some latest := by
  rw [h.mem_names, latest?, ← Option.isSome_iff_exists, List.getLast?_isSome]

theorem occupied_empty : Occupied .empty := nofun

theorem Occupied.append (h : r.Occupied) (name source : String) (compiled : Compilation) :
    (r.append name source compiled).2.Occupied := by
  intro other
  simp only [Registry.append, SortedMap.get?_insert_eq]
  split
  · simp
  · exact h other

theorem Occupied.remove (h : r.Occupied) (name : String) : (r.remove name).2.Occupied := by
  intro other
  simp only [Registry.remove, SortedMap.get?_erase_eq]
  split
  · exact nofun
  · exact h other

theorem names_increasing : r.names.Pairwise (· < ·) :=
  r.histories.increasing_keys.imp compareOfLessAndEq_eq_lt.mp

theorem names_nodup : r.names.Nodup := names_increasing.imp String.ne_of_lt

theorem names_eq (h : ∀ name, name ∈ r.names ↔ name ∈ r'.names) : r.names = r'.names :=
  SortedMap.keys_eq fun name => by
    rw [Bool.eq_iff_iff, ← SortedMap.mem_keys, ← SortedMap.mem_keys]
    exact h name

/-! Compiling anew. -/

/-- The history that is left when the latest text of a history is compiled anew. -/
def renewed (v : Vocabulary) (strict : Bool) (history : List Version) : List Version :=
  match history.getLast? with
  | none => []
  | some latest =>
    match Compilation.ofText latest.source v strict with
    | .ok compiled => history ++ [⟨latest.number + 1, latest.source, compiled⟩]
    | .error _ => []

theorem renewed_nil : renewed v strict [] = [] := rfl

theorem renewed_of_ok {history : List Version} {latest : Version} {compiled : Compilation}
    (hlatest : history.getLast? = some latest)
    (h : Compilation.ofText latest.source v strict = .ok compiled) :
    renewed v strict history = history ++ [⟨latest.number + 1, latest.source, compiled⟩] := by
  simp only [renewed, hlatest, h]

theorem renewed_of_error {history : List Version} {latest : Version} {e : GrammarError}
    (hlatest : history.getLast? = some latest)
    (h : Compilation.ofText latest.source v strict = .error e) :
    renewed v strict history = [] := by
  simp only [renewed, hlatest, h]

theorem renewed_ne_nil {history : List Version} (h : renewed v strict history ≠ []) :
    ∃ latest compiled, history.getLast? = some latest ∧
      Compilation.ofText latest.source v strict = .ok compiled := by
  cases hlatest : history.getLast? with
  | none => exact absurd (by rw [List.getLast?_eq_none_iff.mp hlatest, renewed_nil]) h
  | some latest =>
    cases htext : Compilation.ofText latest.source v strict with
    | error e => exact absurd (renewed_of_error hlatest htext) h
    | ok compiled => exact ⟨latest, compiled, rfl, htext⟩

theorem rebindName_none (h : r.latest? name = none) : rebindName v strict r name = (none, r) := by
  rw [rebindName, h]

theorem rebindName_ok {latest : Version} {compiled : Compilation}
    (hlatest : r.latest? name = some latest)
    (h : Compilation.ofText latest.source v strict = .ok compiled) :
    rebindName v strict r name =
      (some (.ok (latest.number + 1)), (r.append name latest.source compiled).2) := by
  rw [latest?] at hlatest
  simp only [rebindName, latest?, hlatest, h, append, nextNumber]

theorem rebindName_error {latest : Version} {e : GrammarError}
    (hlatest : r.latest? name = some latest)
    (h : Compilation.ofText latest.source v strict = .error e) :
    rebindName v strict r name = (some (.error e), (r.remove name).2) := by
  simp only [rebindName, hlatest, h]

theorem history_rebindName (name other : String) :
    (rebindName v strict r name).2.history other =
      if other = name then renewed v strict (r.history name) else r.history other := by
  cases hlatest : r.latest? name with
  | none =>
    have hnil : r.history name = [] := List.getLast?_eq_none_iff.mp hlatest
    rw [rebindName_none hlatest, hnil, renewed_nil]
    split
    · rename_i hname
      rw [hname, hnil]
    · rfl
  | some latest =>
    cases htext : Compilation.ofText latest.source v strict with
    | error e =>
      rw [rebindName_error hlatest htext, renewed_of_error hlatest htext]
      exact history_remove name other
    | ok compiled =>
      have hnumber : nextNumber (r.history name) = latest.number + 1 := by
        rw [latest?] at hlatest
        rw [nextNumber, hlatest]
      rw [rebindName_ok hlatest htext, renewed_of_ok hlatest htext, ← hnumber]
      exact history_append name latest.source compiled other

theorem outcome_rebindName (name : String) :
    (rebindName v strict r name).1 = (r.latest? name).map fun latest =>
      (Compilation.ofText latest.source v strict).map fun _ => latest.number + 1 := by
  cases hlatest : r.latest? name with
  | none => rw [rebindName_none hlatest, Option.map_none]
  | some latest =>
    cases htext : Compilation.ofText latest.source v strict with
    | error e => rw [rebindName_error hlatest htext, Option.map_some, htext, Except.map]
    | ok compiled => rw [rebindName_ok hlatest htext, Option.map_some, htext, Except.map]

theorem Occupied.rebindName (h : r.Occupied) (name : String) :
    (rebindName v strict r name).2.Occupied := by
  cases hlatest : r.latest? name with
  | none =>
    rw [rebindName_none hlatest]
    exact h
  | some latest =>
    cases htext : Compilation.ofText latest.source v strict with
    | error e =>
      rw [rebindName_error hlatest htext]
      exact h.remove name
    | ok compiled =>
      rw [rebindName_ok hlatest htext]
      exact h.append name latest.source compiled

theorem Occupied.foldl {pass : Registry → String → Registry}
    (hpass : ∀ {r : Registry} name, r.Occupied → (pass r name).Occupied) (h : r.Occupied)
    (names : List String) : (names.foldl pass r).Occupied := by
  induction names generalizing r with
  | nil => exact h
  | cons name names ih => exact ih (hpass name h)

/-- A pass over distinct names changes each history by itself, and as it was before the pass. -/
theorem history_foldl {before : Registry} {pass : Registry → String → Registry}
    {next : List Version → List Version}
    (hpass : ∀ {r} name other, r.history name = before.history name →
      (pass r name).history other = if other = name then next (r.history name) else r.history other)
    {names : List String} (hnodup : names.Nodup) {r : Registry}
    (hr : ∀ name ∈ names, r.history name = before.history name) (name : String) :
    (names.foldl pass r).history name =
      if name ∈ names then next (before.history name) else r.history name := by
  induction names generalizing r with
  | nil => rfl
  | cons first names ih =>
    obtain ⟨hfirst, hnodup⟩ := List.nodup_cons.mp hnodup
    have hstart : r.history first = before.history first := hr first List.mem_cons_self
    have hrest : ∀ other ∈ names, (pass r first).history other = before.history other := by
      intro other hother
      have hne : other ≠ first := fun h => hfirst (by rwa [← h])
      rw [hpass first other hstart, if_neg hne]
      exact hr other (List.mem_cons_of_mem _ hother)
    rw [List.foldl_cons, ih hnodup hrest, hpass first name hstart]
    by_cases hname : name = first
    · subst hname
      simp [hfirst, hstart]
    · simp [hname]

theorem rebindNames_snd (names : List String) (r : Registry) :
    (rebindNames v strict names r).2 =
      names.foldl (fun r name => (rebindName v strict r name).2) r := by
  induction names generalizing r with
  | nil => rfl
  | cons name names ih => exact ih _

theorem rebindNames_fst {names : List String} (hnodup : names.Nodup) (r : Registry) :
    (rebindNames v strict names r).1 = names.filterMap fun name =>
      (r.latest? name).map fun latest =>
        (name, (Compilation.ofText latest.source v strict).map fun _ => latest.number + 1) := by
  induction names generalizing r with
  | nil => rfl
  | cons name names ih =>
    obtain ⟨hname, hnodup⟩ := List.nodup_cons.mp hnodup
    -- No name comes again, so the first one leaves the latest texts of the others alone.
    have hrest : ∀ other ∈ names,
        (rebindName v strict r name).2.latest? other = r.latest? other := by
      intro other hother
      have hne : other ≠ name := fun h => hname (by rwa [← h])
      rw [latest?, history_rebindName, if_neg hne, latest?]
    show ((rebindName v strict r name).1.map (name, ·)).toList ++
      (rebindNames v strict names (rebindName v strict r name).2).1 = _
    rw [ih hnodup, outcome_rebindName, List.filterMap_cons,
      List.filterMap_congr fun other hother => by rw [hrest other hother]]
    cases r.latest? name <;> rfl

theorem outcomes_rebind (r : Registry) (v : Vocabulary) (strict : Bool) :
    (r.rebind v strict).1 = r.names.filterMap fun name =>
      (r.latest? name).map fun latest =>
        (name, (Compilation.ofText latest.source v strict).map fun _ => latest.number + 1) :=
  rebindNames_fst names_nodup r

theorem Occupied.rebind (h : r.Occupied) (v : Vocabulary) (strict : Bool) :
    (r.rebind v strict).2.Occupied := by
  rw [Registry.rebind, rebindNames_snd]
  exact h.foldl (fun name h => h.rebindName name) r.names

theorem Occupied.history_rebind (h : r.Occupied) (v : Vocabulary) (strict : Bool) (name : String) :
    (r.rebind v strict).2.history name = renewed v strict (r.history name) := by
  rw [Registry.rebind, rebindNames_snd,
    history_foldl (fun name other _ => history_rebindName name other) names_nodup fun _ _ => rfl]
  split
  · rfl
  · rename_i hname
    have hnil : r.history name = [] := by rwa [h.mem_names, not_not] at hname
    rw [hnil, renewed_nil]

end Registry

end AttachmentGrammar
