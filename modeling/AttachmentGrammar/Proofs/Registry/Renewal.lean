import AttachmentGrammar.Proofs.Grammar.Outcome
import AttachmentGrammar.Proofs.Registry.Service
/-!
Compiling every latest text for other classes. Main statement: each name fares as its own latest
text does, no grammar of the old classes stays current, and the registry is the one that installing
the latest texts once more leads to, in any order.
-/
namespace AttachmentGrammar

theorem Compilation.vocabulary_of_ofText {text : String} {v : Vocabulary} {strict : Bool}
    {compiled : Compilation} (h : Compilation.ofText text v strict = .ok compiled) :
    compiled.grammar.vocabulary = v := by
  unfold Compilation.ofText at h
  split at h
  · exact nomatch h
  · rename_i rules _
    cases hcompile : compile rules v strict with
    | error errors => simp [hcompile, Except.mapError] at h
    | ok out =>
      simp only [hcompile, Except.mapError, Except.ok.injEq] at h
      exact h ▸ (compile_eq_ok hcompile).2.1

namespace Registry

variable {r : Registry} {name : String} {v : Vocabulary} {strict : Bool}

/-! Outcomes. -/

theorem Occupied.names_outcomes (h : r.Occupied) (v : Vocabulary) (strict : Bool) :
    (r.rebind v strict).1.map (·.1) = r.names := by
  have hsome : ∀ name ∈ r.names, ((r.latest? name).map fun latest =>
      (name, (Compilation.ofText latest.source v strict).map fun _ => latest.number + 1)).map
        Prod.fst = some name := by
    intro name hname
    obtain ⟨latest, hlatest⟩ := h.mem_names_iff_latest?.mp hname
    rw [hlatest]
    rfl
  rw [outcomes_rebind, List.map_filterMap, List.filterMap_congr hsome, List.filterMap_some]

theorem Occupied.mem_outcomes (h : r.Occupied) {outcome : Outcome} :
    (name, outcome) ∈ (r.rebind v strict).1 ↔ ∃ latest, r.latest? name = some latest ∧
      outcome = (Compilation.ofText latest.source v strict).map fun _ => latest.number + 1 := by
  rw [outcomes_rebind, List.mem_filterMap]
  constructor
  · intro hmem
    obtain ⟨other, -, hresult⟩ := hmem
    obtain ⟨latest, hlatest, heq⟩ := Option.map_eq_some_iff.mp hresult
    obtain ⟨rfl, rfl⟩ := Prod.mk.inj heq
    exact ⟨latest, hlatest, rfl⟩
  · intro hmem
    obtain ⟨latest, hlatest, rfl⟩ := hmem
    exact ⟨name, h.mem_names_iff_latest?.mpr ⟨latest, hlatest⟩, by rw [hlatest]; rfl⟩

theorem Occupied.mem_outcomes_ok (h : r.Occupied) :
    (∃ number, (name, .ok number) ∈ (r.rebind v strict).1) ↔ ∃ latest compiled,
      r.latest? name = some latest ∧ Compilation.ofText latest.source v strict = .ok compiled := by
  constructor
  · intro hok
    obtain ⟨number, hmem⟩ := hok
    obtain ⟨latest, hlatest, houtcome⟩ := h.mem_outcomes.mp hmem
    cases htext : Compilation.ofText latest.source v strict with
    | error e => rw [htext] at houtcome; exact nomatch houtcome
    | ok compiled => exact ⟨latest, compiled, hlatest, htext⟩
  · intro hok
    obtain ⟨latest, compiled, hlatest, htext⟩ := hok
    exact ⟨latest.number + 1, h.mem_outcomes.mpr ⟨latest, hlatest, by rw [htext, Except.map]⟩⟩

/-! Afterwards. -/

theorem Occupied.mem_names_rebind (h : r.Occupied) :
    name ∈ (r.rebind v strict).2.names ↔ ∃ latest compiled,
      r.latest? name = some latest ∧ Compilation.ofText latest.source v strict = .ok compiled := by
  rw [(h.rebind v strict).mem_names, h.history_rebind]
  constructor
  · exact renewed_ne_nil
  · intro hok
    obtain ⟨latest, compiled, hlatest, htext⟩ := hok
    rw [renewed_of_ok hlatest htext]
    exact List.concat_ne_nil _ _

section Renewed

variable {latest : Version} {compiled : Compilation} (h : r.Occupied)
  (hlatest : r.latest? name = some latest)
  (htext : Compilation.ofText latest.source v strict = .ok compiled)
include h hlatest htext

theorem Occupied.history_rebind_ok : (r.rebind v strict).2.history name =
    r.history name ++ [⟨latest.number + 1, latest.source, compiled⟩] := by
  rw [h.history_rebind, renewed_of_ok hlatest htext]

theorem Occupied.latest?_rebind : (r.rebind v strict).2.latest? name =
    some ⟨latest.number + 1, latest.source, compiled⟩ := by
  rw [latest?, h.history_rebind_ok hlatest htext, List.getLast?_concat]

end Renewed

/-! The same by single installs. -/

/-- Installs a latest text of `before` once more, and removes its name if that fails. -/
def reinstall (before : Registry) (v : Vocabulary) (strict : Bool) (r : Registry) (name : String) :
    Registry :=
  match before.latest? name with
  | none => r
  | some latest =>
    match r.install name latest.source v strict with
    | .ok (_, r) => r
    | .error _ => (r.remove name).2

theorem reinstall_eq {before : Registry} (h : r.history name = before.history name) :
    before.reinstall v strict r name = (rebindName v strict r name).2 := by
  have hbefore : before.latest? name = r.latest? name := by rw [latest?, latest?, h]
  cases hlatest : r.latest? name with
  | none => rw [reinstall, hbefore, hlatest, rebindName_none hlatest]
  | some latest =>
    cases htext : Compilation.ofText latest.source v strict with
    | error e =>
      simp only [reinstall, hbefore, hlatest, install_eq_error htext, rebindName_error hlatest htext]
    | ok compiled =>
      simp only [reinstall, hbefore, hlatest, install_eq_ok htext, rebindName_ok hlatest htext]

theorem Occupied.reinstall (h : r.Occupied) (before : Registry) (name : String) :
    (before.reinstall v strict r name).Occupied := by
  cases hlatest : before.latest? name with
  | none => simpa only [Registry.reinstall, hlatest] using h
  | some latest =>
    cases htext : Compilation.ofText latest.source v strict with
    | error e =>
      simpa only [Registry.reinstall, hlatest, install_eq_error htext] using h.remove name
    | ok compiled =>
      simpa only [Registry.reinstall, hlatest, install_eq_ok htext] using
        h.append name latest.source compiled

theorem Occupied.foldl_reinstall_eq (h : r.Occupied) (v : Vocabulary) (strict : Bool)
    {order : List String} (horder : order.Perm r.names) :
    order.foldl (r.reinstall v strict) r = (r.rebind v strict).2 := by
  apply ext_history (h.foldl (fun name h => h.reinstall r name) order) (h.rebind v strict)
  intro name
  have hpass : ∀ {r' : Registry} (name other : String), r'.history name = r.history name →
      (r.reinstall v strict r' name).history other =
        if other = name then renewed v strict (r'.history name) else r'.history other := by
    intro r' name other hsame
    rw [reinstall_eq hsame, history_rebindName]
  rw [history_foldl hpass (horder.nodup_iff.mpr names_nodup) (fun _ _ => rfl), h.history_rebind]
  split
  · rfl
  · rename_i hname
    rw [horder.mem_iff, h.mem_names, not_not] at hname
    rw [hname, renewed_nil]

/-- Every name has a text that compiles for `v`, so compiling anew once more drops none. -/
theorem Occupied.renewed_again (h : r.Occupied) (hname : name ∈ (r.rebind v strict).2.names) :
    ∃ latest, (r.rebind v strict).2.latest? name = some latest ∧
      Compilation.ofText latest.source v strict = .ok latest.compiled := by
  obtain ⟨latest, compiled, hlatest, htext⟩ := h.mem_names_rebind.mp hname
  exact ⟨_, h.latest?_rebind hlatest htext, htext⟩

theorem Occupied.names_rebind_rebind (h : r.Occupied) :
    ((r.rebind v strict).2.rebind v strict).2.names = (r.rebind v strict).2.names := by
  have h' := h.rebind v strict
  apply names_eq
  intro name
  rw [h'.mem_names_rebind]
  constructor
  · intro hok
    obtain ⟨latest, compiled, hlatest, -⟩ := hok
    exact h'.mem_names_iff_latest?.mpr ⟨latest, hlatest⟩
  · intro hname
    obtain ⟨latest, hlatest, htext⟩ := h.renewed_again hname
    exact ⟨latest, latest.compiled, hlatest, htext⟩

/-- Compiling anew after any calls: each name fares as its own latest text does, only grammars for
the new classes stay current, as if each latest text had been installed once more, and compiling
anew a second time changes no grammar. -/
theorem rebind_renews (calls : List Call) (v : Vocabulary) (strict : Bool) :
    let r := (Service.run calls).registry
    let outcomes := (r.rebind v strict).1
    let r' := (r.rebind v strict).2
    let outcomes' := (r'.rebind v strict).1
    let r'' := (r'.rebind v strict).2
    (r.names.Pairwise (· < ·) ∧ outcomes.map (·.1) = r.names ∧
      ∀ name outcome, (name, outcome) ∈ outcomes ↔ ∃ latest, r.latest? name = some latest ∧
        outcome = (Compilation.ofText latest.source v strict).map fun _ => latest.number + 1) ∧
    (∀ name, name ∈ r'.names ↔ ∃ number, (name, .ok number) ∈ outcomes) ∧
    (∀ name ∈ r'.names, ∃ latest compiled, r.latest? name = some latest ∧
      Compilation.ofText latest.source v strict = .ok compiled ∧
      r'.history name = r.history name ++ [⟨latest.number + 1, latest.source, compiled⟩] ∧
      r'.current name = .ok compiled.grammar ∧ compiled.grammar.vocabulary = v) ∧
    (∀ order : List String, order.Perm r.names → order.foldl (r.reinstall v strict) r = r') ∧
    (r''.names = r'.names ∧ outcomes'.map (·.1) = r'.names ∧
      ∀ name ∈ r'.names, ∃ latest, r'.latest? name = some latest ∧
        (name, .ok (latest.number + 1)) ∈ outcomes' ∧
        r''.latest? name = some ⟨latest.number + 1, latest.source, latest.compiled⟩) := by
  intro r outcomes r' outcomes' r''
  have h : r.Occupied := (Service.sound_run calls).occupied
  have h' : r'.Occupied := h.rebind v strict
  refine ⟨⟨names_increasing, h.names_outcomes v strict, fun _ _ => h.mem_outcomes⟩, ?_, ?_, ?_,
    h.names_rebind_rebind, h'.names_outcomes v strict, ?_⟩
  · intro name
    exact h.mem_names_rebind.trans h.mem_outcomes_ok.symm
  · intro name hname
    obtain ⟨latest, compiled, hlatest, htext⟩ := h.mem_names_rebind.mp hname
    exact ⟨latest, compiled, hlatest, htext, h.history_rebind_ok hlatest htext,
      current_eq_ok (h.latest?_rebind hlatest htext), Compilation.vocabulary_of_ofText htext⟩
  · intro order horder
    exact h.foldl_reinstall_eq v strict horder
  · intro name hname
    obtain ⟨latest, hlatest, htext⟩ := h.renewed_again hname
    refine ⟨latest, hlatest, ?_, h'.latest?_rebind hlatest htext⟩
    exact h'.mem_outcomes.mpr ⟨latest, hlatest, by rw [htext, Except.map]⟩

def campusNames : Vocabulary := .ofNames ["hub", "node"]

/-- One of the names needs a class that is to go. -/
def campusCalls : List Call := [
  .install "wan" "hub | node\n" campusNames false,
  .install "vpn" "hub | node\nhub\x7b1,\x7d |\n" campusNames false,
  .install "wan" "h* | hub\n" campusNames false,
  .install "lan" "hub | hub\n" campusNames true]

theorem rebind_renews_campus :
    let r := (Service.run campusCalls).registry
    let r' := (r.rebind (.ofNames ["hub"]) false).2
    (r.rebind (.ofNames ["hub"]) false).1.map (fun outcome => (outcome.1, outcome.2.toOption)) =
      [("lan", some 2), ("vpn", none), ("wan", some 3)] ∧
    ["wan", "vpn", "lan"].foldl (r.reinstall (.ofNames ["hub"]) false) r = r' ∧
    (∃ latest compiled, r.latest? "wan" = some latest ∧
      r'.history "wan" = r.history "wan" ++ [⟨latest.number + 1, latest.source, compiled⟩] ∧
      compiled.grammar.vocabulary = .ofNames ["hub"]) ∧
    ∃ latest, r'.latest? "wan" = some latest ∧
      (r'.rebind (.ofNames ["hub"]) false).2.latest? "wan" =
        some ⟨latest.number + 1, latest.source, latest.compiled⟩ := by
  obtain ⟨-, -, hafter, horders, -, -, hagain⟩ :=
    rebind_renews campusCalls (.ofNames ["hub"]) false
  intro r r'
  have hwan : "wan" ∈ r'.names := by decide +kernel
  have horder : ["wan", "vpn", "lan"].Perm r.names := by decide +kernel
  obtain ⟨latest, compiled, hlatest, -, hhistory, -, hvocabulary⟩ := hafter "wan" hwan
  obtain ⟨renewed, hrenewed, -, hlast⟩ := hagain "wan" hwan
  exact ⟨by decide +kernel, horders _ horder, ⟨latest, compiled, hlatest, hhistory, hvocabulary⟩,
    renewed, hrenewed, hlast⟩

end Registry

end AttachmentGrammar
