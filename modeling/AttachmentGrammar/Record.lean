/-!
Records as documents write them: by name, where unknown names do not count and no known one may
stand twice, or by position.
-/
namespace AttachmentGrammar

/-- What may be left out: nothing, a field of a record by name, or a field of any record after
which nothing follows. -/
inductive Presence where
  | required
  | nullable
  | defaulted
  deriving DecidableEq

structure Field where
  name : String
  presence : Presence
  deriving DecidableEq

inductive Layout (α : Type) where
  | named (fields : List (String × α))
  | positional (items : List α)

namespace Layout

variable {α : Type}

def namedValue? (found : List (String × α)) (field : Field) : Option (Option α) :=
  match found.filter (·.1 = field.name) with
  | [] => if field.presence = .required then none else some none
  | [(_, value)] => some (some value)
  | _ :: _ :: _ => none

def positionalValues? : List Field → List α → Option (List (Option α))
  | [], [] => some []
  | [], _ :: _ => none
  | _ :: fields, item :: items => (positionalValues? fields items).map (some item :: ·)
  | field :: fields, [] =>
    if field.presence = .defaulted then (positionalValues? fields []).map (none :: ·) else none

/-- The values of the given fields, in the order given. -/
def values? (fields : List Field) : Layout α → Option (List (Option α))
  | named found => fields.mapM (namedValue? found)
  | positional items => positionalValues? fields items

end Layout

end AttachmentGrammar
