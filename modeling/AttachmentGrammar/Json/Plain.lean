import AttachmentGrammar.Json.Parser
/-!
Values that can be held before it is known what they are for: every string is text, every number is
finite in binary double precision, and nesting is bounded. A number is computed from a significand
of one long word and a power of ten, each rounded before they are multiplied.
-/
namespace AttachmentGrammar.Json

/-- A product from here on rounds to infinity. -/
def overflow : Nat := Nat.pow 2 1024 - Nat.pow 2 970

/-- The nearest number of at most 53 binary digits, the even one of two. -/
def roundToDouble (n : Nat) : Nat :=
  let unit := Nat.pow 2 (n.log2 + 1 - 53)
  let quotient := n / unit
  let remainder := n % unit
  let roundsUp := unit < 2 * remainder ∨ unit = 2 * remainder ∧ quotient % 2 = 1
  (if roundsUp then quotient + 1 else quotient) * unit

/-- Appends digits to a number while it fits in a long word; returns those left over, too. -/
def appendDigits : Nat → List Char → Nat × List Char
  | n, [] => (n, [])
  | n, c :: rest =>
    let longer := Nat.ofDigitChars 10 [c] n
    if longer < UInt64.size then appendDigits longer rest else (n, c :: rest)

def powerOf : List Char → Int
  | _ :: '-' :: digits => -(Nat.ofDigitChars 10 digits 0)
  | _ :: '+' :: digits => Nat.ofDigitChars 10 digits 0
  | _ :: digits => Nat.ofDigitChars 10 digits 0
  | [] => 0

/-- Digits of the whole part that do not fit count as zeros, those of the fraction not at all. -/
def isFiniteDecimal (whole fraction : List Char) (power : Int) : Bool :=
  let (n, zeros) := appendDigits 0 whole
  let (significand, lost) := appendDigits n fraction
  let power := power + zeros.length + lost.length - fraction.length
  significand = 0 || power < 0 ||
    (power ≤ 308 &&
      roundToDouble significand * roundToDouble (Nat.pow 10 power.toNat) < overflow)

def isFinite (written : List Char) : Bool :=
  let parts := do
    let (_, rest) := readSign written
    let (whole, rest) ← readInteger rest
    let (fraction, rest) ← readFraction rest
    let (exponent, _) ← readExponent rest
    return (whole, fraction.drop 1, exponent)
  match parts with
  | none => false
  | some (whole, fraction, exponent) => isFiniteDecimal whole fraction (powerOf exponent)

def isText (written : List Char) : Bool := (unescape? written).isSome

mutual

def isPlain : Nat → Json → Bool
  | _, null | _, bool _ => true
  | _, number written => isFinite written
  | _, string written => isText written
  | 0, array _ | 0, object _ => false
  | depth + 1, array items => arePlain depth items
  | depth + 1, object fields => havePlainFields depth fields
termination_by structural _ j => j

def arePlain : Nat → List Json → Bool
  | _, [] => true
  | depth, item :: items => isPlain depth item && arePlain depth items
termination_by structural _ items => items

def havePlainFields : Nat → List (List Char × Json) → Bool
  | _, [] => true
  | depth, (name, value) :: fields =>
    isText name && isPlain depth value && havePlainFields depth fields
termination_by structural _ fields => fields

end

end AttachmentGrammar.Json
