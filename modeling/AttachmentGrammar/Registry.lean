import AttachmentGrammar.Grammar.Compile
/-!
Compiled grammars by name, with all their versions. Installing takes two steps, compiling the text
and then appending the result as the next version; other calls may come between them. Compiling all
grammars anew for another vocabulary drops those that no longer compile.
-/
namespace AttachmentGrammar

structure Version where
  number : Nat
  source : String
  compiled : Compilation
  deriving DecidableEq

structure Registry where
  histories : SortedMap String (List Version)
  deriving DecidableEq

namespace Registry

def empty : Registry := ⟨.empty⟩

def names (r : Registry) : List String := r.histories.keys

def history (r : Registry) (name : String) : List Version := (r.histories.get? name).getD []

def latest? (r : Registry) (name : String) : Option Version := (r.history name).getLast?

def current (r : Registry) (name : String) : Except GrammarError Grammar :=
  match r.latest? name with
  | some version => .ok version.compiled.grammar
  | none => .error (.unregistered name)

def nextNumber (history : List Version) : Nat :=
  match history.getLast? with
  | some version => version.number + 1
  | none => 1

/-- The second step of installing: the compiled text becomes the newest version. -/
def append (r : Registry) (name source : String) (compiled : Compilation) : Version × Registry :=
  let version : Version := ⟨nextNumber (r.history name), source, compiled⟩
  (version, ⟨r.histories.insert name (r.history name ++ [version])⟩)

def install (r : Registry) (name source : String) (v : Vocabulary) (strict : Bool) :
    Except GrammarError (Version × Registry) :=
  (Compilation.ofText source v strict).map (r.append name source)

def remove (r : Registry) (name : String) : Bool × Registry :=
  ((r.histories.get? name).isSome, ⟨r.histories.erase name⟩)

abbrev Outcome := Except GrammarError Nat

def rebindName (v : Vocabulary) (strict : Bool) (r : Registry) (name : String) :
    Option Outcome × Registry :=
  match r.latest? name with
  | none => (none, r)
  | some latest =>
    match Compilation.ofText latest.source v strict with
    | .ok compiled =>
      let (version, r) := r.append name latest.source compiled
      (some (.ok version.number), r)
    | .error e => (some (.error e), (r.remove name).2)

def rebindNames (v : Vocabulary) (strict : Bool) :
    List String → Registry → List (String × Outcome) × Registry
  | [], r => ([], r)
  | name :: names, r =>
    let (outcome, r) := rebindName v strict r name
    let (outcomes, r) := rebindNames v strict names r
    ((outcome.map (name, ·)).toList ++ outcomes, r)

/-- Compiles the latest text of every name for the given classes. -/
def rebind (r : Registry) (v : Vocabulary) (strict : Bool) :
    List (String × Outcome) × Registry :=
  rebindNames v strict r.names r

end Registry

end AttachmentGrammar
