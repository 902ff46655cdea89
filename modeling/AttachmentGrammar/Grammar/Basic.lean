import AttachmentGrammar.Cardinality
import AttachmentGrammar.Relation
import AttachmentGrammar.Role
import AttachmentGrammar.SortedMap
/-!
A compiled grammar: the known classes, the pairs of them that may attach, and the declared bounds
by class and role. Queries by name treat an unknown class as one that attaches nowhere and has no
bound.
-/
namespace AttachmentGrammar

/-- A class in a role; the order is by class, then by role. -/
structure Position where
  classId : ClassId
  role : Role ClassId
  deriving DecidableEq, Repr

namespace Position

instance : Ord Position where
  compare := compareLex (compareOn classId) (compareOn role)

instance : Std.TransOrd Position :=
  inferInstanceAs (Std.TransCmp (compareLex (compareOn classId) (compareOn role)))

instance : Std.LawfulEqOrd Position where
  compare_self {a} := by
    show compareLex (compareOn classId) (compareOn role) a a = .eq
    simp [compareLex_eq_eq, compareOn]
  eq_of_compare {a b} h := by
    have h : compareLex (compareOn classId) (compareOn role) a b = .eq := h
    simp only [compareLex_eq_eq, compareOn, Std.LawfulEqCmp.compare_eq_iff_eq] at h
    cases a
    cases b
    simp_all

end Position

structure Grammar where
  vocabulary : Vocabulary
  relation : Relation
  bounds : SortedMap Position Cardinality
  ruleCount : Nat
  deriving DecidableEq

namespace Grammar

def classId? (g : Grammar) (name : String) : Option ClassId := g.vocabulary.id? name

def allowsId (g : Grammar) (source target : ClassId) : Bool := g.relation.contains source target

def allows (g : Grammar) (source target : String) : Bool :=
  match g.classId? source, g.classId? target with
  | some s, some t => g.allowsId s t
  | _, _ => false

def declared? (g : Grammar) (id : ClassId) (role : Role ClassId) : Option Cardinality :=
  g.bounds.get? ⟨id, role⟩

def declaredByName? (g : Grammar) (name : String) (role : Role String) : Option Cardinality := do
  let id ← g.classId? name
  let role ← role.mapM? g.classId?
  g.declared? id role

/-- What no rule bounds is unbounded. -/
def bound (g : Grammar) (name : String) (role : Role String) : Cardinality :=
  (g.declaredByName? name role).getD .unbounded

def roleName (g : Grammar) (role : Role ClassId) : Role String := role.map g.vocabulary.name

def targetsOf (g : Grammar) (source : String) : List String :=
  match g.classId? source with
  | none => []
  | some s => (g.vocabulary.entries.filter fun e => g.allowsId s e.1).map (·.2)

def sourcesOf (g : Grammar) (target : String) : List String :=
  match g.classId? target with
  | none => []
  | some t => (g.vocabulary.entries.filter fun e => g.allowsId e.1 t).map (·.2)

def pairs (g : Grammar) : List (String × String) :=
  g.relation.pairs.map fun (s, t) => (g.vocabulary.name s, g.vocabulary.name t)

def declaredBounds (g : Grammar) : List (String × Role String × Cardinality) :=
  g.bounds.toList.map fun (p, c) => (g.vocabulary.name p.classId, g.roleName p.role, c)

def boundCount (g : Grammar) : Nat := g.bounds.size

end Grammar

end AttachmentGrammar
