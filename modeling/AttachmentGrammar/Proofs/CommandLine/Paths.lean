import AttachmentGrammar.CommandLine.Run
/-!
Which files a session reads. An option wins over its variable. A variable of blanks is absent for
the settings, but a path for the command line. Main statement: the two agree exactly if no such
variable stands in for an option.
-/
namespace AttachmentGrammar

/-- The files that a session reads before a graph. -/
inductive Input where
  | grammar
  | classes
  deriving DecidableEq, Repr

namespace Input

def variableName : Input → String
  | grammar => "DEPRULES_GRAMMAR"
  | classes => "DEPRULES_CLASSES"

def option? : Input → Options → Option String
  | grammar, o => o.grammar
  | classes, o => o.classes

def setting? : Input → Settings → Option String
  | grammar, s => s.grammarPath
  | classes, s => s.classesPath

def path? : Input → Session → Option String
  | grammar, s => s.grammar
  | classes, s => s.classes

end Input

variable {env : Environment} {i : Input} {settings : Settings} {outer inner o : Options}
  {words : List String} {command : Command} {a : Arguments}

/-! The settings. -/

def IsBlank (text : String) : Prop := Text.trim text.toList = []

instance (text : String) : Decidable (IsBlank text) := inferInstanceAs (Decidable (_ = _))

/-- A variable that is set to more than blanks. -/
def Environment.filled? (env : Environment) (name : String) : Option String :=
  (env.text? name).filter fun text => ¬IsBlank text

theorem Input.text?_variableName (i : Input) (env : Environment) :
    env.text? i.variableName = (env.get? i.variableName).bind Text.decode? := by
  have hname : Text.cut '=' i.variableName.toList = none := by cases i <;> rfl
  rw [Environment.text?, Environment.written?, hname]

namespace Settings

theorem bind_eq_ok {ε α β : Type} {x : Except ε α} {f : α → Except ε β} {b : β} :
    x >>= f = .ok b ↔ ∃ a, x = .ok a ∧ f a = .ok b := by
  cases x <;> simp [bind, Except.bind]

theorem eq_ok_of_toOption {ε α : Type} {x : Except ε α} {a : α} (h : x.toOption = some a) :
    x = .ok a := by
  cases x with
  | error e => cases h
  | ok b => exact congrArg Except.ok (Option.some.inj h)

theorem readText_variableName {text : Option String} (h : readText env i.variableName = .ok text) :
    text = env.filled? i.variableName := by
  rw [readText] at h
  rw [Environment.filled?, i.text?_variableName]
  cases hvalue : env.get? i.variableName with
  | none =>
    rw [hvalue] at h
    exact (Except.ok.inj h).symm
  | some value =>
    rw [hvalue] at h
    cases hdecode : Text.decode? value with
    | none => simp [hdecode] at h
    | some written =>
      simp only [hdecode, Except.ok.injEq] at h
      subst h
      by_cases hblank : Text.trim written.toList = [] <;>
        simp [hdecode, IsBlank, hblank, Option.filter_some]

/-- The settings hold a path for a variable that is not blank. -/
theorem setting?_eq (h : ofEnvironment variableStart env = .ok settings) (i : Input) :
    i.setting? settings = env.filled? i.variableName := by
  simp only [ofEnvironment, bind_eq_ok] at h
  obtain ⟨strictPatterns, -, logLevel, -, grammarPath, hgrammar, classesPath, hclasses, h⟩ := h
  obtain rfl := Except.ok.inj h
  cases i with
  | grammar => exact readText_variableName (i := .grammar) hgrammar
  | classes => exact readText_variableName (i := .classes) hclasses

end Settings

/-! The command line. -/

theorem Input.option?_ofVariables (i : Input) (env : Environment) :
    i.option? (.ofVariables env) = env.text? i.variableName := by
  cases i <;> rfl

theorem Input.option?_within (i : Input) (outer inner : Options) :
    i.option? (outer.within inner) = (i.option? inner).or (i.option? outer) := by
  cases i <;> rfl

theorem Options.within_empty (o : Options) : Options.within .empty o = o := by
  simp [within, empty]

theorem Options.acceptsVariables_iff : o.acceptsVariables env = true ↔
    ∀ i : Input, i.option? o ≠ none ∨ env.text? i.variableName ≠ some "" := by
  simp only [acceptsVariables, Bool.and_eq_true, Bool.or_eq_true, Option.isSome_iff_ne_none,
    decide_eq_true_eq]
  constructor
  · intro h i
    cases i with
    | grammar => exact h.1
    | classes => exact h.2
  · intro h
    exact ⟨h .grammar, h .classes⟩

namespace Arguments

/-- What a command line gives before and after its command, and the command. -/
def places? (words : List String) : Option (Options × Options × Command) := do
  let (outer, rest) ← Words.empty.read? [] commandNames.contains words
  match rest, outer.values with
  | name :: rest, [] => do
    let (inner, _) ← Words.empty.read? (switchesOf name) (fun _ => false) rest
    let command ← command? name inner
    return (outer.options, inner.options, command)
  | _, _ => none

/-- The words are read without the variables, which are joined to them afterwards. -/
theorem parse?_eq (env : Environment) (words : List String) :
    parse? env words = (places? words).bind fun (outer, inner, command) =>
      if outer.acceptsVariables env ∧ inner.acceptsVariables env then
        some ⟨(Options.ofVariables env).within (outer.within inner), command⟩
      else none := by
  simp only [parse?, places?, Option.bind_eq_bind, Option.bind_assoc]
  refine Option.bind_congr fun parsed _ => ?_
  obtain ⟨outer, rest⟩ := parsed
  cases rest with
  | nil => rfl
  | cons name rest =>
    cases outer.values with
    | cons value values => rfl
    | nil => simp [Option.bind_assoc]

theorem parse?_of_places (h : places? words = some (outer, inner, command)) :
    parse? env words = if outer.acceptsVariables env ∧ inner.acceptsVariables env then
      some ⟨(Options.ofVariables env).within (outer.within inner), command⟩ else none := by
  rw [parse?_eq, h]
  rfl

theorem parse?_empty : parse? .empty words = some a ↔
    ∃ outer inner, places? words = some (outer, inner, a.command) ∧
      a.options = outer.within inner := by
  have haccepts (o : Options) : o.acceptsVariables .empty = true :=
    Options.acceptsVariables_iff.mpr fun i => .inr fun hvalue => by cases i <;> cases hvalue
  have hnone : Options.ofVariables .empty = .empty := rfl
  obtain ⟨options, command⟩ := a
  simp only [parse?_eq, haccepts, hnone, Options.within_empty, and_self, if_true,
    Option.bind_eq_some_iff, Option.some.injEq, Arguments.mk.injEq, Prod.exists]
  constructor
  · intro h
    obtain ⟨outer, inner, _, hplaces, rfl, rfl⟩ := h
    exact ⟨outer, inner, hplaces, rfl⟩
  · intro h
    obtain ⟨outer, inner, hplaces, rfl⟩ := h
    exact ⟨outer, inner, command, hplaces, rfl, rfl⟩

end Arguments

/-! Both together. -/

namespace Input

/-- The path that is meant: a blank variable counts as absent. -/
def meant? (i : Input) (o : Options) (env : Environment) : Option String :=
  (i.option? o).or (env.filled? i.variableName)

/-- An empty variable for which a place of the command line does not give the option. -/
def LeftEmpty (i : Input) (env : Environment) (outer inner : Options) : Prop :=
  env.text? i.variableName = some "" ∧ (i.option? outer = none ∨ i.option? inner = none)

/-- A blank variable that does not count as absent. -/
def Misread (i : Input) (env : Environment) (outer inner : Options) : Prop :=
  i.LeftEmpty env outer inner ∨ i.option? (outer.within inner) = none ∧
    ∃ text, env.text? i.variableName = some text ∧ IsBlank text

theorem accepts_iff : outer.acceptsVariables env = true ∧ inner.acceptsVariables env = true ↔
    ∀ i : Input, ¬i.LeftEmpty env outer inner := by
  rw [Options.acceptsVariables_iff, Options.acceptsVariables_iff, ← forall_and]
  refine forall_congr' fun i => ?_
  rw [LeftEmpty]
  by_cases htext : env.text? i.variableName = some "" <;> simp [htext]

theorem option?_or_text?_eq_meant? :
    (i.option? o).or (env.text? i.variableName) = i.meant? o env ↔
      ¬(i.option? o = none ∧ ∃ text, env.text? i.variableName = some text ∧ IsBlank text) := by
  rw [meant?, Environment.filled?]
  cases i.option? o with
  | some path => simp
  | none => cases env.text? i.variableName <;> simp [Option.filter_some]

theorem path?_ofSettings (i : Input) (settings : Settings) (a : Arguments) :
    i.path? (.ofSettings settings a) = (i.option? a.options).or (i.setting? settings) := by
  cases i <;> rfl

/-- What the settings hold for set is there for the command line as well. -/
theorem text?_or_filled? (env : Environment) (name : String) :
    (env.text? name).or (env.filled? name) = env.text? name := by
  rw [Environment.filled?]
  cases env.text? name <;> rfl

end Input

/-- The session of a command line whose options win over the variables that are not blank. -/
structure Session.Follows (s : Session) (a : Arguments) (env : Environment) : Prop where
  command_eq : s.command = a.command
  path_eq : ∀ i : Input, i.path? s = i.meant? a.options env
  no_grammar : Input.grammar.meant? a.options env = none → a.command ≠ .version →
    ∀ files, s.run files = (Stop.of .noGrammar).outcome
  classes_of_rules : Input.classes.meant? a.options env = none →
    ∀ files rules, s.vocabulary files rules = .ok (.ofRules rules)

theorem Session.run_of_no_grammar {s : Session} (h : s.grammar = none)
    (hcommand : s.command ≠ .version) (files : Files) :
    s.run files = (Stop.of .noGrammar).outcome := by
  have hrules : s.rules files = .error (.of .noGrammar) := by rw [rules, h]
  have hcompiled : s.compiled files = .error (.of .noGrammar) := by
    rw [compiled, hrules]
    rfl
  cases hc : s.command with
  | check bounds =>
    simp only [run, hc, check, hcompiled]
    rfl
  | render =>
    simp only [run, hc, render, hrules]
    rfl
  | validate path allowViolations =>
    simp only [run, hc, validate, hcompiled]
    rfl
  | version => exact (hcommand hc).elim

theorem Session.follows_of_path_eq {s : Session} (h : s.command = a.command)
    (hpath : ∀ i : Input, i.path? s = i.meant? a.options env) : s.Follows a env := by
  refine ⟨h, hpath, fun hnone hcommand => ?_, fun hnone files rules => ?_⟩
  · have hgrammar : s.grammar = none := (hpath .grammar).trans hnone
    exact run_of_no_grammar hgrammar (h ▸ hcommand)
  · have hclasses : s.classes = none := (hpath .classes).trans hnone
    rw [vocabulary, hclasses]

theorem Session.follows_iff {s : Session} (h : s.command = a.command)
    (hpath : ∀ i : Input, i.path? s = (i.option? a.options).or (env.text? i.variableName)) :
    s.Follows a env ↔ ∀ i : Input, ¬(i.option? a.options = none ∧
      ∃ text, env.text? i.variableName = some text ∧ IsBlank text) := by
  constructor
  · intro hfollows i
    exact Input.option?_or_text?_eq_meant?.mp ((hpath i).symm.trans (hfollows.path_eq i))
  · intro hread
    exact follows_of_path_eq h fun i =>
      (hpath i).trans (Input.option?_or_text?_eq_meant?.mpr (hread i))

/-- The variables that count for a request. -/
def Request.environment (variableFile : FileState) (env : Environment) : Environment :=
  (variableFile.contents?.map fun contents => EnvironmentFile.load contents env).getD env

namespace Request

variable {variableFile : FileState}

/-- The variables of the file count as if they were set. -/
theorem of_eq_of_missing (variableFile : FileState) (env : Environment) (words : List String) :
    Request.of variableFile env words = .of .missing (environment variableFile env) words := by
  cases variableFile <;> rfl

theorem of_error {e : SettingsError} (h : Settings.ofEnvironment Settings.variableStart
    (environment variableFile env) = .error e) :
    Request.of variableFile env words = .refused (.settings e) := by
  rw [of_eq_of_missing]
  simp only [Request.of, FileState.contents?, h]

theorem of_ok (h : Settings.ofEnvironment Settings.variableStart
    (environment variableFile env) = .ok settings) : Request.of variableFile env words =
      ((Arguments.parse? (environment variableFile env) words).map fun a =>
        session (.ofSettings settings a)).getD misused := by
  rw [of_eq_of_missing]
  cases hparse : Arguments.parse? (environment variableFile env) words <;>
    simp [Request.of, FileState.contents?, h, hparse]

/-- Where the settings can be read, a command line is misused if it leaves an option to an empty
variable; else it gives a session, which takes each path from the option or the variable. -/
theorem of_places (h : Settings.ofEnvironment Settings.variableStart
    (environment variableFile env) = .ok settings)
    (hplaces : Arguments.places? words = some (outer, inner, command)) :
    ((∃ i : Input, i.LeftEmpty (environment variableFile env) outer inner) ∧
      Request.of variableFile env words = misused) ∨
    (∀ i : Input, ¬i.LeftEmpty (environment variableFile env) outer inner) ∧
      ∃ s, Request.of variableFile env words = session s ∧ s.command = command ∧
        ∀ i : Input, i.path? s = (i.option? (outer.within inner)).or
          ((environment variableFile env).text? i.variableName) := by
  rw [of_ok h, Arguments.parse?_of_places hplaces]
  by_cases hempty : ∃ i : Input, i.LeftEmpty (environment variableFile env) outer inner
  · refine .inl ⟨hempty, ?_⟩
    obtain ⟨i, hi⟩ := hempty
    rw [if_neg fun haccepts => Input.accepts_iff.mp haccepts i hi]
    rfl
  · refine .inr ⟨not_exists.mp hempty, ?_⟩
    rw [if_pos (Input.accepts_iff.mpr (not_exists.mp hempty))]
    refine ⟨_, rfl, rfl, fun i => ?_⟩
    rw [Input.path?_ofSettings, Settings.setting?_eq h, Input.option?_within i (.ofVariables _),
      Input.option?_ofVariables, Option.or_assoc, Input.text?_or_filled?]

/-- A session reads the paths that are meant exactly if no blank variable is misread. Otherwise a
blank variable is a path, an empty one a misuse of the command line. -/
theorem session_follows_iff (variableFile : FileState) (env : Environment) {words : List String}
    {a : Arguments} (h : Arguments.parse? .empty words = some a) :
    ∃ outer inner, Arguments.places? words = some (outer, inner, a.command) ∧
      a.options = outer.within inner ∧
      let vars := environment variableFile env
      let request := Request.of variableFile env words
      (∀ e, Settings.ofEnvironment Settings.variableStart vars = .error e →
        request = refused (.settings e)) ∧
      ∀ settings, Settings.ofEnvironment Settings.variableStart vars = .ok settings →
        ((∃ s, request = session s ∧ s.Follows a vars) ↔
          ∀ i : Input, ¬i.Misread vars outer inner) ∧
        (request = misused ↔ ∃ i : Input, i.LeftEmpty vars outer inner) ∧
        ∀ s, request = session s → s.command = a.command ∧ ∀ i : Input,
          i.path? s = (i.option? a.options).or (vars.text? i.variableName) := by
  obtain ⟨outer, inner, hplaces, hoptions⟩ := Arguments.parse?_empty.mp h
  refine ⟨outer, inner, hplaces, hoptions, fun e => of_error, fun settings hsettings => ?_⟩
  rcases of_places hsettings hplaces with ⟨hempty, hof⟩ | ⟨hnone, s, hof, hcommand, hpath⟩
  · rw [hof]
    refine ⟨?_, ?_, nofun⟩
    · refine ⟨nofun, fun hread => ?_⟩
      obtain ⟨i, hi⟩ := hempty
      exact (hread i (.inl hi)).elim
    · exact ⟨fun _ => hempty, fun _ => rfl⟩
  · rw [hof]
    rw [← hoptions] at hpath
    have hfollows := Session.follows_iff hcommand hpath
    refine ⟨?_, ?_, ?_⟩
    · constructor
      · intro hread i hmisread
        obtain ⟨s', hs, hs'⟩ := hread
        obtain rfl := session.inj hs
        rcases hmisread with hempty | hblank
        · exact hnone i hempty
        · exact hfollows.mp hs' i (hoptions ▸ hblank)
      · intro hread
        exact ⟨s, rfl, hfollows.mpr fun i hblank => hread i (.inr (hoptions ▸ hblank))⟩
    · refine ⟨nofun, fun hempty => ?_⟩
      obtain ⟨i, hi⟩ := hempty
      exact (hnone i hi).elim
    · intro s' hs
      obtain rfl := session.inj hs
      exact ⟨hcommand, hpath⟩

/-- Both places give the grammar, for which the variable is empty; a file gives the classes. -/
def moorings : Environment := .ofList [("DEPRULES_GRAMMAR", [])]

def mooringFile : FileState := .file (Text.encode "DEPRULES_CLASSES='a list' # kept\n")

def mooringWords : List String := ["--grammar", "ropes", "check", "--grammar=knots", "--strict"]

theorem session_follows_iff_moorings : ∃ a, Arguments.parse? .empty mooringWords = some a ∧
    ∃ s, Request.of mooringFile moorings mooringWords = session s ∧
      s.Follows a (environment mooringFile moorings) ∧
      s.grammar = some "knots" ∧ s.classes = some "a list" := by
  have hwords : Arguments.parse? .empty mooringWords =
      some ⟨⟨some "knots", none, none, true⟩, .check false⟩ := by decide +kernel
  refine ⟨_, hwords, ?_⟩
  obtain ⟨outer, inner, hplaces, -, -, hok⟩ := session_follows_iff mooringFile moorings hwords
  have hvalue : Arguments.places? mooringWords = some (⟨some "ropes", none, none, false⟩,
      ⟨some "knots", none, none, true⟩, .check false) := by decide +kernel
  obtain ⟨rfl, hinner⟩ := Prod.mk.inj (Option.some.inj (hplaces.symm.trans hvalue))
  obtain ⟨rfl, -⟩ := Prod.mk.inj hinner
  have hsettings : Settings.ofEnvironment Settings.variableStart
      (environment mooringFile moorings) =
        .ok { Settings.standard with classesPath := some "a list" } :=
    Settings.eq_ok_of_toOption (by decide +kernel)
  have hclasses : (environment mooringFile moorings).text? Input.classes.variableName =
      some "a list" := by decide +kernel
  obtain ⟨hfollows, -⟩ := hok _ hsettings
  obtain ⟨s, hs, hs'⟩ := hfollows.mpr <| by
    intro i hmisread
    cases i with
    | grammar =>
      -- both places give the option
      rcases hmisread with ⟨-, hnone | hnone⟩ | ⟨hnone, -⟩ <;> cases hnone
    | classes =>
      rcases hmisread with ⟨hempty, -⟩ | ⟨-, text, htext, hblank⟩
      · exact absurd (hclasses.symm.trans hempty) (by decide)
      · obtain rfl := Option.some.inj (hclasses.symm.trans htext)
        exact absurd hblank (by decide)
  refine ⟨s, hs, hs', ?_, ?_⟩
  · exact (hs'.path_eq .grammar).trans (by decide +kernel)
  · exact (hs'.path_eq .classes).trans (by decide +kernel)

/-- The grammar's variable is blank. -/
def blankGrammar : Environment := .ofList [("DEPRULES_GRAMMAR", Text.encode " ")]

/-- The settings hold no grammar, but the blank is a path, and an empty variable a misuse. -/
theorem not_follows_blank :
    Arguments.parse? .empty ["check"] = some ⟨.empty, .check false⟩ ∧
    Settings.ofEnvironment Settings.variableStart blankGrammar = .ok .standard ∧
    Request.of .missing blankGrammar ["check"] =
      session ⟨some " ", none, false, .check false⟩ ∧
    Request.of .missing (.ofList [("DEPRULES_GRAMMAR", [])]) ["check"] = misused ∧
    ¬∃ s, Request.of .missing blankGrammar ["check"] = session s ∧
      s.Follows ⟨.empty, .check false⟩ blankGrammar := by
  have hof : Request.of .missing blankGrammar ["check"] =
      session ⟨some " ", none, false, .check false⟩ := by decide +kernel
  refine ⟨by decide +kernel, Settings.eq_ok_of_toOption (by decide +kernel), hof,
    by decide +kernel, fun hfollows => ?_⟩
  obtain ⟨s, hs, hfollows⟩ := hfollows
  obtain rfl := session.inj (hof.symm.trans hs)
  have hpath : some " " = Input.grammar.meant? .empty blankGrammar := hfollows.path_eq .grammar
  exact absurd hpath (by decide +kernel)

end Request
end AttachmentGrammar
