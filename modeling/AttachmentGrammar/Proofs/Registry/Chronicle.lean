import AttachmentGrammar.Proofs.Registry.Service
/-!
Where the versions of a registry come from. Main statement: after any calls every version was
compiled from its text by the call that appended it, has the number of its place, and keeps that
place until its history is dropped.
-/
namespace AttachmentGrammar

theorem getElem?_concat_eq_some {α : Type} {xs : List α} {x y : α} {i : Nat}
    (h : (xs ++ [x])[i]? = some y) : xs[i]? = some y ∨ i = xs.length ∧ y = x := by
  rw [List.getElem?_append] at h
  split at h
  · exact .inl h
  · rename_i hle
    obtain ⟨hlt, hy⟩ := List.getElem?_eq_some_iff.mp h
    rw [List.length_singleton] at hlt
    have hlength : i = xs.length := by omega
    subst hlength
    exact .inr ⟨rfl, by simpa using hy.symm⟩

namespace Registry

structure Orderly (r : Registry) : Prop where
  names_increasing : r.names.Pairwise (· < ·)
  mem_names : ∀ name, name ∈ r.names ↔ r.history name ≠ []
  numbered : ∀ name, (r.history name).map (·.number) = List.range' 1 (r.history name).length
  latest : ∀ name, r.latest? name = (r.history name).getLast?
  current : ∀ name version, r.latest? name = some version →
    r.current name = .ok version.compiled.grammar
  unregistered : ∀ name, r.current name = .error (.unregistered name) ↔ r.history name = []

end Registry

namespace Service

variable {s : Service} {calls : List Call} {call : Call} {name : String} {i : Nat}
  {version : Version}

theorem Sound.orderly (h : Sound calls s) : s.registry.Orderly where
  names_increasing := Registry.names_increasing
  mem_names _ := h.occupied.mem_names
  numbered := h.numbered
  latest _ := rfl
  current _ _ := Registry.current_eq_ok
  unregistered _ := Registry.current_eq_error_iff

theorem Sound.compiles (h : Sound calls s) {install : Install} (hadds : s.Adds install call) :
    install.Compiles := by
  cases hadds with
  | install htext => exact htext
  | commit i hi => exact (h.prepared install (List.mem_of_getElem? hi)).1
  | rebind latest _ _ htext => exact htext

/-! The place of a version. -/

/-- A call puts a version at place `i` of a history, where it stays during the calls after it. -/
structure Enters (before : List Call) (call : Call) (after : List Call) (install : Install) (i : Nat)
    (version : Version) : Prop where
  adds : (run before).Adds install call
  compiles : install.Compiles
  prepared : ∀ j, call = .commit j →
    .prepare install.name install.source install.vocabulary install.strict ∈ before
  place : ((run before).registry.history install.name).length = i
  version_eq : version = ⟨i + 1, install.source, install.compiled⟩
  stays : ∀ since, since <+: after →
    ((run (before ++ call :: since)).registry.history install.name)[i]? = some version

def Origin (calls : List Call) (name : String) (i : Nat) (version : Version) : Prop :=
  ∃ before call after install, calls = before ++ call :: after ∧ install.name = name ∧
    Enters before call after install i version

theorem Origin.concat (h : Origin calls name i version) {call : Call}
    (hstays : ((run (calls ++ [call])).registry.history name)[i]? = some version) :
    Origin (calls ++ [call]) name i version := by
  obtain ⟨before, first, after, install, rfl, rfl, henters⟩ := h
  have hcalls (more : List Call) :
      before ++ first :: after ++ more = before ++ first :: (after ++ more) := by
    rw [List.append_assoc, List.cons_append]
  refine ⟨before, first, after ++ [call], install, hcalls _, rfl, ?_⟩
  refine { henters with stays := fun since hprefix => ?_ }
  rcases List.prefix_concat_iff.mp hprefix with rfl | hprefix
  · rwa [hcalls] at hstays
  · exact henters.stays since hprefix

theorem origin_of_adds {install : Install} (hadds : (run calls).Adds install call)
    (hplace : ((run calls).registry.history install.name).length = i)
    (hadded : ((run (calls ++ [call])).registry.history install.name)[i]? =
      some ⟨i + 1, install.source, install.compiled⟩) :
    Origin (calls ++ [call]) install.name i ⟨i + 1, install.source, install.compiled⟩ := by
  have hsound := sound_run calls
  refine ⟨calls, call, [], install, rfl, rfl, hadds, hsound.compiles hadds, ?_, hplace, rfl, ?_⟩
  · intro j hcall
    subst hcall
    cases hadds with
    | commit j hj => exact (hsound.prepared install (List.mem_of_getElem? hj)).2
  · intro since hprefix
    rw [List.prefix_nil.mp hprefix]
    exact hadded

theorem origin_run (calls : List Call) (name : String) (i : Nat) (version : Version)
    (h : ((run calls).registry.history name)[i]? = some version) :
    Origin calls name i version := by
  -- The last call put the version there, or it was in that place before.
  induction calls using List.reverseRecOn with
  | nil => exact nomatch h
  | append_singleton calls call ih =>
    have hsound := sound_run calls
    have hafter := h
    rw [run_concat] at h
    cases (effect_step (run calls) call).change hsound.occupied name with
    | keeps heq =>
      rw [heq] at h
      exact (ih h).concat hafter
    | adds install hname hadds heq =>
      rw [heq, (hsound.numbered name).nextNumber_eq] at h
      rcases getElem?_concat_eq_some h with hold | ⟨hplace, hversion⟩
      · exact (ih hold).concat hafter
      · subst hname hplace hversion
        exact origin_of_adds hadds rfl hafter
    | drops _ heq =>
      rw [heq] at h
      exact nomatch h

/-- The history of a name only grows until a call drops it. -/
theorem history_run_append (calls more : List Call) (name : String) :
    (run calls).registry.history name <+: (run (calls ++ more)).registry.history name ∨
      ∃ between call rest, more = between ++ call :: rest ∧
        (run (calls ++ between)).Drops name call ∧
        (run (calls ++ between ++ [call])).registry.history name = [] := by
  induction more using List.reverseRecOn with
  | nil =>
    rw [List.append_nil]
    exact .inl (List.prefix_refl _)
  | append_singleton more call ih =>
    rcases ih with hgrown | ⟨between, dropping, rest, rfl, hdrops, hnil⟩
    · have hoccupied := (sound_run (calls ++ more)).occupied
      rw [← List.append_assoc, run_concat]
      cases (effect_step (run (calls ++ more)) call).change hoccupied name with
      | keeps heq => exact .inl (heq ▸ hgrown)
      | adds install _ _ heq =>
        rw [heq]
        exact .inl (hgrown.trans (List.prefix_append _ _))
      | drops hdrops heq =>
        refine .inr ⟨more, call, [], rfl, hdrops, ?_⟩
        rw [run_concat, heq]
    · refine .inr ⟨between, dropping, rest ++ [call], ?_, hdrops, hnil⟩
      rw [List.append_assoc, List.cons_append]

/-! Installs. -/

def next (s : Service) (install : Install) : Version :=
  ⟨(s.registry.history install.name).length + 1, install.source, install.compiled⟩

/-- The call answers with the version that it appends, and leaves all other histories alone. -/
structure Appends (s : Service) (call : Call) (install : Install) : Prop where
  answer : (s.step call).1 = .installed (s.next install)
  history : (s.step call).2.registry.history install.name =
    s.registry.history install.name ++ [s.next install]
  others : ∀ other, other ≠ install.name →
    (s.step call).2.registry.history other = s.registry.history other

theorem Sound.appends (h : Sound calls s) {install : Install} {underway : List Install}
    (hstep : s.step call =
      (.installed (s.registry.append install.name install.source install.compiled).1,
        ⟨(s.registry.append install.name install.source install.compiled).2, underway⟩)) :
    s.Appends call install := by
  have hnext : (s.registry.append install.name install.source install.compiled).1 =
      s.next install := by
    rw [Registry.append, (h.numbered install.name).nextNumber_eq, next]
  constructor
  · rw [hstep, hnext]
  · rw [hstep, Registry.history_append, if_pos rfl, hnext]
  · intro other hother
    rw [hstep, Registry.history_append, if_neg hother]

/-- After any calls the registry is in order, every version stems from a call of the run, and what
the next calls can do to a history is to append what they compiled or to drop it. -/
theorem run_chronicle (calls : List Call) :
    let s := run calls
    s.registry.Orderly ∧
    (∀ name i version, (s.registry.history name)[i]? = some version →
      Origin calls name i version) ∧
    (∀ name source v strict e, Compilation.ofText source v strict = .error e →
      s.step (.install name source v strict) = (.failed e, s) ∧
      s.step (.prepare name source v strict) = (.failed e, s)) ∧
    (∀ install : Install, install.Compiles →
      s.Appends (.install install.name install.source install.vocabulary install.strict) install ∧
      s.step (.prepare install.name install.source install.vocabulary install.strict) =
        (.prepared, { s with underway := s.underway ++ [install] })) ∧
    (∀ i install, s.underway[i]? = some install → s.Appends (.commit i) install) ∧
    (∀ more name, s.registry.history name <+: (run (calls ++ more)).registry.history name ∨
      ∃ between call rest, more = between ++ call :: rest ∧
        (run (calls ++ between)).Drops name call ∧
        (run (calls ++ between ++ [call])).registry.history name = []) := by
  intro s
  have hsound : Sound calls s := sound_run calls
  refine ⟨hsound.orderly, origin_run calls, ?_, ?_, ?_, history_run_append calls⟩
  · intro name source v strict e htext
    exact ⟨step_install_error htext, step_prepare_error htext⟩
  · intro install htext
    exact ⟨hsound.appends (step_install htext), step_prepare htext⟩
  · intro i install hi
    exact hsound.appends (step_commit hi)

def meshNames : Vocabulary := .ofNames ["hub", "node"]

/-- Two installs of one name cross. -/
def meshCalls : List Call := [
  .prepare "mesh" "hub | node\n" meshNames false,
  .install "mesh" "node | hub\n" meshNames false,
  .install "star" "hub | node\nhub\x7b1,\x7d |\n" meshNames false,
  .commit 0]

/-- Without one of its classes a text no longer compiles, and its name is dropped. -/
def meshChange : Call := .rebind (.ofNames ["hub"]) false

theorem run_chronicle_mesh :
    ((run (meshCalls ++ [meshChange])).registry.history "mesh").map
        (fun version => (version.number, version.source)) =
      [(1, "node | hub\n"), (2, "hub | node\n"), (3, "hub | node\n")] ∧
    (∃ version, Origin (meshCalls ++ [meshChange]) "mesh" 1 version) ∧
    (∃ e, (run meshCalls).step (.install "mesh" "hub node\n" meshNames false) =
      (.failed e, run meshCalls)) ∧
    (∃ install, (run (meshCalls.take 3)).Appends (.commit 0) install) ∧
    (run (meshCalls ++ [])).Drops "star" meshChange := by
  obtain ⟨-, horigin, -⟩ := run_chronicle (meshCalls ++ [meshChange])
  obtain ⟨-, -, hfails, -, -, hgrown⟩ := run_chronicle meshCalls
  obtain ⟨-, -, -, -, hcommit, -⟩ := run_chronicle (meshCalls.take 3)
  refine ⟨by decide +kernel, ⟨_, horigin "mesh" 1 _ rfl⟩, ⟨_, (hfails _ _ _ _ _ rfl).1⟩,
    ⟨_, hcommit 0 _ rfl⟩, ?_⟩
  rcases hgrown [meshChange] "star" with hkept | ⟨between, call, rest, hcalls, hdrops, -⟩
  · exact absurd hkept (by decide +kernel)
  · obtain ⟨rfl, hcall⟩ : between = [] ∧ call = meshChange := by
      cases between with
      | nil => exact ⟨rfl, (List.cons.inj hcalls).1.symm⟩
      | cons first between => simp at hcalls
    exact hcall ▸ hdrops

end Service

end AttachmentGrammar
