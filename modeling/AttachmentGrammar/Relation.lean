import AttachmentGrammar.Vocabulary
/-!
The allowed pairs of classes as a square table of marks, stored row after row. A mark is addressed
by its place in the whole table, so a column past the end of a row falls into a later row; only a
place outside the table has no answer.
-/
namespace AttachmentGrammar

structure Relation where
  size : Nat
  cells : Array Bool
  count : Nat
  size_cells : cells.size = size * size
  deriving DecidableEq

namespace Relation

def empty (size : Nat) : Relation where
  size := size
  cells := Array.replicate (size * size) false
  count := 0
  size_cells := by simp

def place (r : Relation) (source target : ClassId) : Nat := source * r.size + target

def cell? (r : Relation) (place : Nat) : Option Bool := r.cells[place]?

/-- Marks a pair, and says whether it was unmarked before. -/
def insert? (r : Relation) (source target : ClassId) : Option (Bool × Relation) :=
  match r.cell? (r.place source target) with
  | none => none
  | some true => some (false, r)
  | some false => some (true, {
      size := r.size
      cells := r.cells.setIfInBounds (r.place source target) true
      count := r.count + 1
      size_cells := by simpa using r.size_cells })

/-- Marks a pair; a place outside the table marks nothing. -/
def insert (r : Relation) (source target : ClassId) : Relation :=
  match r.insert? source target with
  | none => r
  | some (_, marked) => marked

def contains (r : Relation) (source target : ClassId) : Bool :=
  source < r.size && target < r.size && r.cell? (r.place source target) = some true

def isEmpty (r : Relation) : Bool := r.count = 0

/-- Needs the whole row to lie in the table. -/
def hasOutgoing? (r : Relation) (source : ClassId) : Option Bool :=
  if source * r.size + r.size ≤ r.cells.size then
    some ((List.range r.size).any fun target => r.cell? (r.place source target) = some true)
  else none

def seekMark (r : Relation) (target : ClassId) : List ClassId → Option Bool
  | [] => some false
  | source :: sources =>
    match r.cell? (r.place source target) with
    | none => none
    | some true => some true
    | some false => r.seekMark target sources

/-- Reads the rows in order until a mark is found or a place lies outside the table. -/
def hasIncoming? (r : Relation) (target : ClassId) : Option Bool :=
  r.seekMark target (List.range r.size)

def hasOutgoing (r : Relation) (source : ClassId) : Bool := (r.hasOutgoing? source).getD false

def hasIncoming (r : Relation) (target : ClassId) : Bool := (r.hasIncoming? target).getD false

def pairs (r : Relation) : List (ClassId × ClassId) :=
  (List.range r.cells.size).filterMap fun place =>
    if r.cell? place = some true then some (place / r.size, place % r.size) else none

end Relation

end AttachmentGrammar
