import AttachmentGrammar.Text.Numeral
/-!
Ranges of attachment counts: a least count and, unless the range is open above, a greatest one.
Main statement: the intersection of two ranges holds exactly the counts that both hold.
-/
namespace AttachmentGrammar

structure Cardinality where
  low : UInt32
  high : Option UInt32
  deriving DecidableEq, Repr

namespace Cardinality

def unbounded : Cardinality := ⟨0, none⟩

instance : Inhabited Cardinality := ⟨unbounded⟩

/-- No range has its least count above its greatest one. -/
def ofBounds? (low : UInt32) (high : Option UInt32) : Option Cardinality :=
  if high.all (low ≤ ·) then some ⟨low, high⟩ else none

def exactly (n : UInt32) : Cardinality := ⟨n, some n⟩

def atLeast (n : UInt32) : Cardinality := ⟨n, none⟩

def atMost (n : UInt32) : Cardinality := ⟨0, some n⟩

def isUnbounded (c : Cardinality) : Bool := c = unbounded

def contains (c : Cardinality) (n : UInt32) : Bool := c.low ≤ n && c.high.all (n ≤ ·)

def leastHigh : Option UInt32 → Option UInt32 → Option UInt32
  | some a, some b => some (min a b)
  | some a, none => some a
  | none, b => b

def intersect? (a b : Cardinality) : Option Cardinality :=
  ofBounds? (max a.low b.low) (leastHigh a.high b.high)

/-- A single count is written alone; a range open above ends with its comma. -/
def render (c : Cardinality) : List Char :=
  let low := Text.decimal c.low.toNat
  '{' :: (match c.high with
    | none => low ++ [',']
    | some high => if high = c.low then low else low ++ ',' :: Text.decimal high.toNat) ++ ['}']

instance : ToString Cardinality := ⟨fun c => String.ofList c.render⟩

theorem contains_iff {c : Cardinality} {n : UInt32} :
    c.contains n = true ↔ c.low ≤ n ∧ ∀ high ∈ c.high, n ≤ high := by
  cases h : c.high <;> simp [contains, h]

theorem le_leastHigh_iff {n : UInt32} {a b : Option UInt32} :
    (∀ high ∈ leastHigh a b, n ≤ high) ↔ (∀ high ∈ a, n ≤ high) ∧ ∀ high ∈ b, n ≤ high := by
  cases a <;> cases b <;> simp [leastHigh, Std.le_min_iff]

theorem max_low_le_iff {n a b : UInt32} : max a b ≤ n ↔ a ≤ n ∧ b ≤ n := by
  simp only [UInt32.le_iff_toNat_le, Max.max]
  split <;> omega

theorem contains_of_intersect? {a b c : Cardinality} (h : a.intersect? b = some c) (n : UInt32) :
    c.contains n = (a.contains n && b.contains n) := by
  simp only [intersect?, ofBounds?] at h
  split at h
  · obtain rfl := Option.some.inj h
    rw [Bool.eq_iff_iff, Bool.and_eq_true, contains_iff, contains_iff, contains_iff,
      max_low_le_iff, le_leastHigh_iff]
    simp only [and_assoc, and_left_comm]
  · cases h

end Cardinality

end AttachmentGrammar
