/-!
Decimal numerals. A numeral is a non-empty run of the digits 0 to 9; leading zeros count for
nothing. Main statement: what is written for a number reads back as it.
-/
namespace AttachmentGrammar.Text

def decimal (n : Nat) : List Char := Nat.toDigits 10 n

def readDecimal (s : List Char) : Option Nat :=
  if s ≠ [] ∧ s.all Char.isDigit then some (Nat.ofDigitChars 10 s 0) else none

theorem readDecimal_decimal (n : Nat) : readDecimal (decimal n) = some n := by
  have hne : decimal n ≠ [] := Nat.toDigits_ne_nil
  have hall : (decimal n).all Char.isDigit = true :=
    List.all_eq_true.mpr fun _ h => Nat.isDigit_of_mem_toDigits (by decide) (by decide) h
  simp only [readDecimal, hne, ne_eq, not_false_eq_true, hall, and_self, if_true]
  exact congrArg some (Nat.ofDigitChars_toDigits (by decide) (by decide))

def dropPlus : List Char → List Char
  | '+' :: digits => digits
  | digits => digits

/-- A plus sign may stand in front; a value of 2^32 or more is refused. -/
def readWord (s : List Char) : Option UInt32 :=
  match readDecimal (dropPlus s) with
  | some n => if n < UInt32.size then some (UInt32.ofNat n) else none
  | none => none

end AttachmentGrammar.Text
