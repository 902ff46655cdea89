/-!
The position in which a class attaches: all of its outgoing or incoming attachments, or only those
to or from one other class. Others are given by name or by number. The order puts the two
aggregates first, then the outgoing roles by class, then the incoming ones by class.
-/
namespace AttachmentGrammar

inductive Role (α : Type) where
  | source
  | target
  | sourceOf (other : α)
  | targetOf (other : α)
  deriving DecidableEq, Repr

namespace Role

variable {α β : Type}

def map (f : α → β) : Role α → Role β
  | source => source
  | target => target
  | sourceOf other => sourceOf (f other)
  | targetOf other => targetOf (f other)

def mapM? (f : α → Option β) : Role α → Option (Role β)
  | source => some source
  | target => some target
  | sourceOf other => (f other).map sourceOf
  | targetOf other => (f other).map targetOf

def isAggregate : Role α → Bool
  | source | target => true
  | sourceOf _ | targetOf _ => false

def rank : Role α → Nat
  | source => 0
  | target => 1
  | sourceOf _ => 2
  | targetOf _ => 3

def other? : Role α → Option α
  | source | target => none
  | sourceOf other | targetOf other => some other

instance [Ord α] : Ord (Role α) where
  compare := compareLex (compareOn rank) (compareOn other?)

instance [Ord α] [Std.TransOrd α] : Std.TransOrd (Role α) :=
  inferInstanceAs (Std.TransCmp (compareLex (compareOn rank) (compareOn other?)))

instance [Ord α] [Std.LawfulEqOrd α] : Std.LawfulEqOrd (Role α) where
  compare_self {a} := by
    show compareLex (compareOn rank) (compareOn other?) a a = .eq
    simp [compareLex_eq_eq, compareOn]
  eq_of_compare {a b} h := by
    have h : compareLex (compareOn rank) (compareOn other?) a b = .eq := h
    simp only [compareLex_eq_eq, compareOn, Std.LawfulEqCmp.compare_eq_iff_eq] at h
    cases a <;> cases b <;> simp_all [rank, other?]

def render : Role String → String
  | source => "source"
  | target => "target"
  | sourceOf other => "source of `" ++ other ++ "`"
  | targetOf other => "target of `" ++ other ++ "`"

instance : ToString (Role String) := ⟨render⟩

end Role

end AttachmentGrammar
