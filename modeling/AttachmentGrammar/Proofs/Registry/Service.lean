import AttachmentGrammar.Proofs.Registry.Histories
import Mathlib.Data.List.Induction
/-!
A registry under calls that may come between the two steps of an install. Main statements: a call
keeps a history, appends one version that was compiled for it, or drops the history, and after any
calls the histories are numbered without gaps and what is underway has compiled.
-/
namespace AttachmentGrammar

/-- An install between its two steps: the text has compiled and is not appended yet. -/
structure Install where
  name : String
  source : String
  vocabulary : Vocabulary
  strict : Bool
  compiled : Compilation
  deriving DecidableEq

def Install.Compiles (install : Install) : Prop :=
  Compilation.ofText install.source install.vocabulary install.strict = .ok install.compiled

inductive Call where
  | names
  | history (name : String)
  | latest (name : String)
  | current (name : String)
  | install (name source : String) (v : Vocabulary) (strict : Bool)
  | prepare (name source : String) (v : Vocabulary) (strict : Bool)
  | commit (i : Nat)
  | rebind (v : Vocabulary) (strict : Bool)
  | remove (name : String)

inductive Answer where
  | names (names : List String)
  | history (versions : List Version)
  | latest (version? : Option Version)
  | current (grammar : Except GrammarError Grammar)
  | failed (e : GrammarError)
  | prepared
  | installed (version : Version)
  | rebound (outcomes : List (String × Registry.Outcome))
  | removed (found : Bool)
  | nothing

structure Service where
  registry : Registry
  underway : List Install

namespace Service

def start : Service := ⟨.empty, []⟩

def step (s : Service) : Call → Answer × Service
  | .names => (.names s.registry.names, s)
  | .history name => (.history (s.registry.history name), s)
  | .latest name => (.latest (s.registry.latest? name), s)
  | .current name => (.current (s.registry.current name), s)
  | .install name source v strict =>
    match s.registry.install name source v strict with
    | .ok (version, registry) => (.installed version, { s with registry })
    | .error e => (.failed e, s)
  | .prepare name source v strict =>
    match Compilation.ofText source v strict with
    | .ok compiled =>
      (.prepared, { s with underway := s.underway ++ [⟨name, source, v, strict, compiled⟩] })
    | .error e => (.failed e, s)
  | .commit i =>
    match s.underway[i]? with
    | some install =>
      let (version, registry) := s.registry.append install.name install.source install.compiled
      (.installed version, ⟨registry, s.underway.eraseIdx i⟩)
    | none => (.nothing, s)
  | .rebind v strict =>
    let (outcomes, registry) := s.registry.rebind v strict
    (.rebound outcomes, { s with registry })
  | .remove name =>
    let (found, registry) := s.registry.remove name
    (.removed found, { s with registry })

def run (calls : List Call) : Service :=
  calls.foldl (fun s call => (s.step call).2) start

variable {s s' : Service} {calls : List Call} {call : Call} {name : String}

theorem run_concat (calls : List Call) (call : Call) :
    run (calls ++ [call]) = ((run calls).step call).2 :=
  List.foldl_concat ..

/-! One call. -/

theorem step_install {install : Install} (h : install.Compiles) :
    s.step (.install install.name install.source install.vocabulary install.strict) =
      (.installed (s.registry.append install.name install.source install.compiled).1,
        { s with
          registry := (s.registry.append install.name install.source install.compiled).2 }) := by
  rw [step, Registry.install_eq_ok h]

theorem step_prepare {install : Install} (h : install.Compiles) :
    s.step (.prepare install.name install.source install.vocabulary install.strict) =
      (.prepared, { s with underway := s.underway ++ [install] }) := by
  rw [Install.Compiles] at h
  rw [step, h]

theorem step_commit {i : Nat} {install : Install} (h : s.underway[i]? = some install) :
    s.step (.commit i) =
      (.installed (s.registry.append install.name install.source install.compiled).1,
        ⟨(s.registry.append install.name install.source install.compiled).2,
          s.underway.eraseIdx i⟩) := by
  rw [step, h]

section Failing

variable {name source : String} {v : Vocabulary} {strict : Bool} {e : GrammarError}
  (h : Compilation.ofText source v strict = .error e)
include h

theorem step_install_error : s.step (.install name source v strict) = (.failed e, s) := by
  rw [step, Registry.install_eq_error h]

theorem step_prepare_error : s.step (.prepare name source v strict) = (.failed e, s) := by
  rw [step, h]

end Failing

/-- The call appends what the install compiled to the history of its name. -/
inductive Adds (s : Service) (install : Install) : Call → Prop where
  | install (h : install.Compiles) :
    Adds s install (.install install.name install.source install.vocabulary install.strict)
  | commit (i : Nat) (h : s.underway[i]? = some install) : Adds s install (.commit i)
  | rebind (latest : Version) (hlatest : s.registry.latest? install.name = some latest)
    (hsource : install.source = latest.source) (h : install.Compiles) :
    Adds s install (.rebind install.vocabulary install.strict)

def Drops (s : Service) (name : String) : Call → Prop
  | .remove other => other = name
  | .rebind v strict => ∃ latest e,
    s.registry.latest? name = some latest ∧ Compilation.ofText latest.source v strict = .error e
  | _ => False

/-- The services that a call can lead to. What a call keeps is read off these, not off `step`. -/
inductive Effect (s : Service) : Call → Service → Prop where
  | idle (call : Call) : Effect s call s
  | append (install : Install) (underway : List Install) {call : Call} (h : s.Adds install call)
    (hunderway : underway ⊆ s.underway) :
    Effect s call
      ⟨(s.registry.append install.name install.source install.compiled).2, underway⟩
  | prepare (install : Install) (h : install.Compiles) :
    Effect s (.prepare install.name install.source install.vocabulary install.strict)
      ⟨s.registry, s.underway ++ [install]⟩
  | rebind (v : Vocabulary) (strict : Bool) :
    Effect s (.rebind v strict) ⟨(s.registry.rebind v strict).2, s.underway⟩
  | remove (name : String) : Effect s (.remove name) ⟨(s.registry.remove name).2, s.underway⟩

theorem effect_step (s : Service) (call : Call) : s.Effect call (s.step call).2 := by
  cases call with
  | names => exact .idle _
  | history name => exact .idle _
  | latest name => exact .idle _
  | current name => exact .idle _
  | install name source v strict =>
    cases htext : Compilation.ofText source v strict with
    | error e =>
      rw [step_install_error htext]
      exact .idle _
    | ok compiled =>
      have hcompiles : Install.Compiles ⟨name, source, v, strict, compiled⟩ := htext
      rw [step_install hcompiles]
      exact .append _ _ (.install hcompiles) (List.Subset.refl _)
  | prepare name source v strict =>
    cases htext : Compilation.ofText source v strict with
    | error e =>
      rw [step_prepare_error htext]
      exact .idle _
    | ok compiled =>
      have hcompiles : Install.Compiles ⟨name, source, v, strict, compiled⟩ := htext
      rw [step_prepare hcompiles]
      exact .prepare _ hcompiles
  | commit i =>
    cases hinstall : s.underway[i]? with
    | none =>
      rw [step, hinstall]
      exact .idle _
    | some install =>
      rw [step_commit hinstall]
      exact .append _ _ (.commit i hinstall) List.eraseIdx_subset
  | rebind v strict => exact .rebind v strict
  | remove name => exact .remove name

/-- What a call can make of the history of a name. -/
inductive Change (s : Service) (name : String) (call : Call) (after : List Version) : Prop where
  | keeps (h : after = s.registry.history name)
  | adds (install : Install) (hname : install.name = name) (hadds : s.Adds install call)
    (h : after = s.registry.history name ++
      [⟨Registry.nextNumber (s.registry.history name), install.source, install.compiled⟩])
  | drops (hdrops : s.Drops name call) (h : after = [])

theorem change_rebind (hs : s.registry.Occupied) (v : Vocabulary) (strict : Bool) (name : String) :
    s.Change name (.rebind v strict) ((s.registry.rebind v strict).2.history name) := by
  rw [hs.history_rebind]
  cases hlatest : (s.registry.history name).getLast? with
  | none =>
    have hnil : s.registry.history name = [] := List.getLast?_eq_none_iff.mp hlatest
    exact .keeps (by rw [hnil, Registry.renewed_nil])
  | some latest =>
    cases htext : Compilation.ofText latest.source v strict with
    | error e => exact .drops ⟨latest, e, hlatest, htext⟩ (Registry.renewed_of_error hlatest htext)
    | ok compiled =>
      refine .adds ⟨name, latest.source, v, strict, compiled⟩ rfl
        (.rebind latest hlatest rfl htext) ?_
      rw [Registry.renewed_of_ok hlatest htext, Registry.nextNumber, hlatest]

theorem Effect.change (h : s.Effect call s') (hs : s.registry.Occupied) (name : String) :
    s.Change name call (s'.registry.history name) := by
  cases h with
  | idle => exact .keeps rfl
  | append install underway hadds =>
    rw [Registry.history_append]
    split
    · rename_i hname
      subst hname
      exact .adds install rfl hadds rfl
    · exact .keeps rfl
  | prepare install => exact .keeps rfl
  | rebind v strict => exact change_rebind hs v strict name
  | remove other =>
    rw [Registry.history_remove]
    split
    · rename_i hname
      exact .drops hname.symm rfl
    · exact .keeps rfl

theorem Effect.occupied (h : s.Effect call s') (hs : s.registry.Occupied) :
    s'.registry.Occupied := by
  cases h with
  | idle => exact hs
  | append install underway hadds => exact hs.append _ _ _
  | prepare install => exact hs
  | rebind v strict => exact hs.rebind v strict
  | remove name => exact hs.remove name

theorem Effect.mem_underway {install : Install} (h : s.Effect call s')
    (hinstall : install ∈ s'.underway) :
    install ∈ s.underway ∨ install.Compiles ∧
      call = .prepare install.name install.source install.vocabulary install.strict := by
  cases h with
  | idle => exact .inl hinstall
  | append other underway hadds hunderway => exact .inl (hunderway hinstall)
  | prepare other htext =>
    rcases List.mem_append.mp hinstall with hold | hnew
    · exact .inl hold
    · obtain rfl := List.mem_singleton.mp hnew
      exact .inr ⟨htext, rfl⟩
  | rebind v strict => exact .inl hinstall
  | remove name => exact .inl hinstall

/-! Runs. -/

structure Sound (calls : List Call) (s : Service) : Prop where
  occupied : s.registry.Occupied
  numbered : ∀ name, Numbered (s.registry.history name)
  prepared : ∀ install ∈ s.underway, install.Compiles ∧
    .prepare install.name install.source install.vocabulary install.strict ∈ calls

theorem Sound.step (h : Sound calls s) (call : Call) : Sound (calls ++ [call]) (s.step call).2 := by
  have heffect := effect_step s call
  refine ⟨heffect.occupied h.occupied, fun name => ?_, fun install hinstall => ?_⟩
  · cases heffect.change h.occupied name with
    | keeps hafter => exact hafter ▸ h.numbered name
    | adds install _ _ hafter =>
      rw [hafter, numbered_concat]
      exact ⟨h.numbered name, (h.numbered name).nextNumber_eq⟩
    | drops _ hafter => exact hafter ▸ numbered_nil
  · rcases heffect.mem_underway hinstall with hold | ⟨htext, hcall⟩
    · obtain ⟨htext, hprepared⟩ := h.prepared install hold
      exact ⟨htext, List.mem_append_left _ hprepared⟩
    · exact ⟨htext, List.mem_append_right _ (List.mem_singleton.mpr hcall.symm)⟩

theorem sound_run (calls : List Call) : Sound calls (run calls) := by
  induction calls using List.reverseRecOn with
  | nil => exact ⟨Registry.occupied_empty, fun _ => numbered_nil, nofun⟩
  | append_singleton calls call ih =>
    rw [run_concat]
    exact ih.step call

end Service

end AttachmentGrammar
