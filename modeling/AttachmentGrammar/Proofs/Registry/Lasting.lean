import AttachmentGrammar.Proofs.Registry.Chronicle
import AttachmentGrammar.Proofs.Registry.Renewal
/-!
How long compiling anew for other classes lasts. Main statement: until the next time only grammars
for those classes, and installs that have compiled since, become current, exactly if every install
that was underway is for those classes too.
-/
namespace AttachmentGrammar.Service

/-- One of the calls appends the install, and its text has compiled among them too. -/
def Installs (before after : List Call) (install : Install) : Prop :=
  ∃ mid call rest, after = mid ++ call :: rest ∧ (run (before ++ mid)).Adds install call ∧
    (call = .install install.name install.source install.vocabulary install.strict ∨
      .prepare install.name install.source install.vocabulary install.strict ∈ mid)

/-- Compiling anew after the calls `before` lasts: until the next time, a grammar that is current is
for the classes `v`, or it was installed since. -/
def Lasts (before : List Call) (v : Vocabulary) (strict : Bool) : Prop :=
  ∀ after name g, (∀ w o, .rebind w o ∉ after) →
    (run (before ++ [.rebind v strict] ++ after)).registry.current name = .ok g →
      g.vocabulary = v ∨ ∃ install, Installs (before ++ [.rebind v strict]) after install ∧
        install.name = name ∧ install.compiled.grammar = g

variable {before after : List Call} {call : Call} {install : Install} {v : Vocabulary}
  {strict : Bool}

theorem Installs.concat (h : Installs before after install) (call : Call) :
    Installs before (after ++ [call]) install := by
  obtain ⟨mid, first, rest, rfl, hadds, hcompiled⟩ := h
  exact ⟨mid, first, rest ++ [call], by simp, hadds, hcompiled⟩

/-- The text of an install that is only appended has compiled before. -/
theorem not_installs_commit {i : Nat} : ¬Installs before [.commit i] install := by
  rintro ⟨mid, call, rest, hsplit, -, hcompiled⟩
  obtain ⟨rfl, hcall⟩ : mid = [] ∧ [.commit i] = call :: rest := by
    cases mid with
    | nil => exact ⟨rfl, hsplit⟩
    | cons first mid => simp at hsplit
  obtain ⟨rfl, -⟩ := List.cons.inj hcall
  rcases hcompiled with hcall | hprepared
  · cases hcall
  · cases hprepared

/-- Every grammar that is current or underway is for the classes, unless it has compiled since. -/
structure Recent (v : Vocabulary) (before after : List Call) : Prop where
  latest : ∀ name version, (run (before ++ after)).registry.latest? name = some version →
    version.compiled.grammar.vocabulary = v ∨ ∃ install, Installs before after install ∧
      install.name = name ∧ install.compiled = version.compiled
  underway : ∀ install ∈ (run (before ++ after)).underway, install.vocabulary = v ∨
    .prepare install.name install.source install.vocabulary install.strict ∈ after

theorem recent_rebind (h : ∀ install ∈ (run before).underway, install.vocabulary = v) :
    Recent v (before ++ [.rebind v strict]) [] := by
  have hoccupied := (sound_run before).occupied
  have hrun : run (before ++ [.rebind v strict] ++ []) =
      ⟨((run before).registry.rebind v strict).2, (run before).underway⟩ := by
    rw [List.append_nil, run_concat]
    rfl
  constructor
  · intro name version hversion
    rw [hrun] at hversion
    have hname := (hoccupied.rebind v strict).mem_names_iff_latest?.mpr ⟨version, hversion⟩
    obtain ⟨latest, compiled, hlatest, htext⟩ := hoccupied.mem_names_rebind.mp hname
    rw [hoccupied.latest?_rebind hlatest htext] at hversion
    obtain rfl := Option.some.inj hversion
    exact .inl (Compilation.vocabulary_of_ofText htext)
  · intro install hinstall
    rw [hrun] at hinstall
    exact .inl (h install hinstall)

theorem Recent.concat (h : Recent v before after) (hcall : ∀ w o, call ≠ .rebind w o) :
    Recent v before (after ++ [call]) := by
  have hsound := sound_run (before ++ after)
  have heffect := effect_step (run (before ++ after)) call
  rw [← run_concat, List.append_assoc] at heffect
  constructor
  · intro name version hversion
    cases heffect.change hsound.occupied name with
    | keeps hafter =>
      rw [Registry.latest?, hafter] at hversion
      refine (h.latest name version hversion).imp_right fun hinstalls => ?_
      obtain ⟨install, hinstalls, hrest⟩ := hinstalls
      exact ⟨install, hinstalls.concat call, hrest⟩
    | adds install hname hadds hafter =>
      rw [Registry.latest?, hafter, List.getLast?_concat] at hversion
      obtain rfl := Option.some.inj hversion
      have hcompiles := hsound.compiles hadds
      -- a text that is appended has compiled in this call, since, or before
      cases hadds with
      | install htext =>
        exact .inr ⟨install, ⟨after, _, [], rfl, .install htext, .inl rfl⟩, hname, rfl⟩
      | commit i hi =>
        rcases h.underway install (List.mem_of_getElem? hi) with hv | hprepared
        · exact .inl (hv ▸ Compilation.vocabulary_of_ofText hcompiles)
        · exact .inr ⟨install, ⟨after, _, [], rfl, .commit i hi, .inr hprepared⟩, hname, rfl⟩
      | rebind latest hlatest hsource htext => exact (hcall _ _ rfl).elim
    | drops hdrops hafter =>
      rw [Registry.latest?, hafter] at hversion
      cases hversion
  · intro install hinstall
    rcases heffect.mem_underway hinstall with hold | ⟨-, hprepare⟩
    · exact (h.underway install hold).imp_right (List.mem_append_left _)
    · exact .inr (List.mem_append_right _ (List.mem_singleton.mpr hprepare.symm))

theorem Recent.append (h : Recent v before []) (hafter : ∀ w o, .rebind w o ∉ after) :
    Recent v before after := by
  induction after using List.reverseRecOn with
  | nil => exact h
  | append_singleton after call ih =>
    have hearlier : ∀ w o, .rebind w o ∉ after := fun w o hmem =>
      hafter w o (List.mem_append_left _ hmem)
    refine (ih hearlier).concat fun w o hcall => ?_
    exact hafter w o (List.mem_append_right _ (List.mem_singleton.mpr hcall.symm))

/-- An install that was underway is appended whatever the classes are by then. -/
theorem current_commit {i : Nat} (h : (run before).underway[i]? = some install) :
    (run (before ++ [.rebind v strict] ++ [.commit i])).registry.current install.name =
      .ok install.compiled.grammar := by
  have hunderway : (run (before ++ [.rebind v strict])).underway[i]? = some install := by
    rw [run_concat]
    exact h
  have hlatest (r : Registry) : (r.append install.name install.source install.compiled).2.latest?
      install.name = some (r.append install.name install.source install.compiled).1 := by
    rw [Registry.latest?, Registry.history_append, if_pos rfl, List.getLast?_concat]
  rw [run_concat, step_commit hunderway]
  exact Registry.current_eq_ok (hlatest _)

/-- Compiling anew lasts exactly if nothing for other classes is underway. -/
theorem lasts_iff (before : List Call) (v : Vocabulary) (strict : Bool) :
    Lasts before v strict ↔ ∀ install ∈ (run before).underway, install.vocabulary = v := by
  constructor
  · -- what is underway can be appended at once
    intro h install hinstall
    obtain ⟨i, hi⟩ := List.mem_iff_getElem?.mp hinstall
    have hcompiles := ((sound_run before).prepared install hinstall).1
    rcases h [.commit i] install.name _ (by simp) (current_commit hi) with hv | hinstalls
    · rwa [Compilation.vocabulary_of_ofText hcompiles] at hv
    · obtain ⟨other, hinstalls, -⟩ := hinstalls
      exact (not_installs_commit hinstalls).elim
  · intro h after name g hafter hcurrent
    have hrecent : Recent v (before ++ [.rebind v strict]) after :=
      (recent_rebind h).append hafter
    rw [Registry.current] at hcurrent
    split at hcurrent
    · rename_i version hversion
      obtain rfl := Except.ok.inj hcurrent
      refine (hrecent.latest name version hversion).imp_right fun hinstalls => ?_
      obtain ⟨install, hinstalls, hname, hcompiled⟩ := hinstalls
      exact ⟨install, hinstalls, hname, congrArg Compilation.grammar hcompiled⟩
    · cases hcurrent

def relayNames : Vocabulary := .ofNames ["hub", "relay"]

def relaySource : String := "hub | relay\nhub\x7b1,\x7d |\n"

/-- An install has compiled for classes of which one is to go. -/
def relayCalls : List Call := [
  .install "mesh" "hub | relay\n" relayNames true, .prepare "mesh" relaySource relayNames true]

def relayRebound : List Call := relayCalls ++ [.rebind (.ofNames ["hub"]) true]

/-- The name is removed because it needs a class that is gone, and comes back with that class. -/
theorem not_lasts_relay :
    (run relayRebound).registry.names = [] ∧
      (Compilation.ofText relaySource (.ofNames ["hub"]) true).toOption = none ∧
        (∃ g, (run (relayRebound ++ [.commit 0])).registry.current "mesh" = .ok g ∧
          g.vocabulary = relayNames) ∧
          ¬Lasts relayCalls (.ofNames ["hub"]) true := by
  have hunderway : ∃ install, (run relayCalls).underway[0]? = some install ∧
      install.name = "mesh" ∧ install.compiled.grammar.vocabulary = relayNames :=
    ⟨_, rfl, by decide +kernel, by decide +kernel⟩
  obtain ⟨install, hinstall, hname, hold⟩ := hunderway
  have hcurrent : (run (relayRebound ++ [.commit 0])).registry.current "mesh" =
      .ok install.compiled.grammar := hname ▸ current_commit hinstall
  refine ⟨by decide +kernel, by decide +kernel, ⟨_, hcurrent, hold⟩, fun hlasts => ?_⟩
  rcases hlasts [.commit 0] "mesh" _ (by simp) hcurrent with hv | hinstalls
  · have hne : relayNames ≠ .ofNames ["hub"] := by decide +kernel
    exact hne (hold.symm.trans hv)
  · obtain ⟨other, hinstalls, -⟩ := hinstalls
    exact not_installs_commit hinstalls

end AttachmentGrammar.Service
