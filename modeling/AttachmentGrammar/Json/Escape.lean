/-!
The characters between the quotes of a JSON string. A backslash starts an escape; an escape by
number gives a 16-bit code unit, and a pair of surrogate units gives one character. Main statement:
an escaped text reads back as itself.
-/
namespace AttachmentGrammar.Json

def hexDigit? (c : Char) : Option Nat :=
  if '0' ≤ c ∧ c ≤ '9' then some (c.toNat - '0'.toNat)
  else if 'a' ≤ c ∧ c ≤ 'f' then some (c.toNat - 'a'.toNat + 10)
  else if 'A' ≤ c ∧ c ≤ 'F' then some (c.toNat - 'A'.toNat + 10)
  else none

def hexUnit? (a b c d : Char) : Option Nat := do
  let a ← hexDigit? a
  let b ← hexDigit? b
  let c ← hexDigit? c
  let d ← hexDigit? d
  return ((a * 16 + b) * 16 + c) * 16 + d

/-- The characters with an escape of their own, each with the letter that names it. -/
def shortEscapes : List (Char × Char) :=
  [('"', '"'), ('\\', '\\'), ('\x08', 'b'), ('\x0c', 'f'), ('\n', 'n'), ('\r', 'r'), ('\t', 't')]

def shortEscape? (letter : Char) : Option Char :=
  if letter = '/' then some '/'
  else (shortEscapes.find? fun e => e.2 = letter).map (·.1)

inductive Piece where
  | char (c : Char)
  | unit (code : Nat)
  deriving DecidableEq, Repr

/-- Reads the escapes; a lone quote, a control character and an unknown escape are refused. -/
def pieces? : List Char → Option (List Piece)
  | [] => some []
  | '\\' :: 'u' :: a :: b :: c :: d :: rest => do
    let code ← hexUnit? a b c d
    let pieces ← pieces? rest
    return .unit code :: pieces
  | '\\' :: e :: rest => do
    let c ← shortEscape? e
    let pieces ← pieces? rest
    return .char c :: pieces
  | c :: rest =>
    if c = '"' ∨ c = '\\' ∨ c.toNat < 0x20 then none else (pieces? rest).map (.char c :: ·)

def isHighSurrogate (code : Nat) : Bool := 0xD800 ≤ code && code < 0xDC00

def isLowSurrogate (code : Nat) : Bool := 0xDC00 ≤ code && code < 0xE000

/-- Joins surrogate pairs; the first argument is a high surrogate that waits for its other half. -/
def joinPieces? : Option Nat → List Piece → Option (List Char)
  | none, [] => some []
  | some _, [] => none
  | some _, .char _ :: _ => none
  | none, .char c :: rest => (joinPieces? none rest).map (c :: ·)
  | some high, .unit low :: rest =>
    if isLowSurrogate low then
      (joinPieces? none rest).map
        (Char.ofNat (0x10000 + (high - 0xD800) * 0x400 + (low - 0xDC00)) :: ·)
    else none
  | none, .unit code :: rest =>
    if isHighSurrogate code then joinPieces? (some code) rest
    else if isLowSurrogate code then none
    else (joinPieces? none rest).map (Char.ofNat code :: ·)

def unescape? (written : List Char) : Option (List Char) :=
  (pieces? written).bind (joinPieces? none)

def escapeChar (c : Char) : List Char :=
  match shortEscapes.lookup c with
  | some letter => ['\\', letter]
  | none =>
    if c.toNat < 0x20 then
      ['\\', 'u', '0', '0', Nat.digitChar (c.toNat / 16), Nat.digitChar (c.toNat % 16)]
    else [c]

def escape (text : List Char) : List Char := text.flatMap escapeChar

theorem pieces?_short {letter c : Char} (h : shortEscape? letter = some c) (rest : List Char) :
    pieces? ('\\' :: letter :: rest) = (pieces? rest).map (.char c :: ·) := by
  have hu : letter ≠ 'u' := fun he => by
    have none : shortEscape? 'u' = none := by decide
    rw [he, none] at h
    cases h
  rw [pieces?.eq_def]
  split
  · contradiction
  · simp_all
  · rename_i heq
    simp only [List.cons.injEq, true_and] at heq
    obtain ⟨rfl, rfl⟩ := heq
    simp only [h]
    cases pieces? rest <;> rfl
  · rename_i hne heq
    obtain ⟨rfl, rfl⟩ := List.cons.inj heq
    exact absurd rfl (hne letter rest rfl)

theorem pieces?_control {n : Nat} (h : n < 0x20) (rest : List Char) :
    pieces? ('\\' :: 'u' :: '0' :: '0' :: Nat.digitChar (n / 16) :: Nat.digitChar (n % 16) :: rest)
      = (pieces? rest).map (.unit n :: ·) := by
  have hex : hexUnit? '0' '0' (Nat.digitChar (n / 16)) (Nat.digitChar (n % 16)) = some n := by
    revert n
    decide
  simp only [pieces?, hex]
  cases pieces? rest <;> rfl

theorem pieces?_plain {c : Char} (hq : c ≠ '"') (hb : c ≠ '\\') (hc : ¬ c.toNat < 0x20)
    (rest : List Char) : pieces? (c :: rest) = (pieces? rest).map (.char c :: ·) := by
  rw [pieces?.eq_def]
  split
  · contradiction
  · simp_all
  · simp_all
  · rename_i heq
    obtain ⟨rfl, rfl⟩ := List.cons.inj heq
    simp [hq, hb, hc]

theorem joinPieces?_pieces?_escapeChar (c : Char) (rest : List Char) :
    (pieces? (escapeChar c ++ rest)).bind (joinPieces? none) =
      ((pieces? rest).bind (joinPieces? none)).map (c :: ·) := by
  unfold escapeChar
  split
  · rename_i letter h
    have hs : shortEscape? letter = some c := by
      have table : ∀ e ∈ shortEscapes, shortEscape? e.2 = some e.1 := by decide
      obtain ⟨before, after, he, -⟩ := List.lookup_eq_some_iff.mp h
      exact table (c, letter) (by simp [he])
    rw [List.cons_append, List.cons_append, List.nil_append, pieces?_short hs]
    cases pieces? rest <;> simp [joinPieces?]
  · rename_i h
    split
    · rename_i hc
      simp only [List.cons_append, List.nil_append]
      rw [pieces?_control hc]
      have high : isHighSurrogate c.toNat = false := by simp [isHighSurrogate]; omega
      have low : isLowSurrogate c.toNat = false := by simp [isLowSurrogate]; omega
      cases pieces? rest <;> simp [joinPieces?, high, low, Char.ofNat_toNat]
    · rename_i hc
      have hq : c ≠ '"' := fun he => by rw [he] at h; exact absurd h (by decide)
      have hb : c ≠ '\\' := fun he => by rw [he] at h; exact absurd h (by decide)
      rw [List.cons_append, List.nil_append, pieces?_plain hq hb hc]
      cases pieces? rest <;> simp [joinPieces?]

theorem unescape?_escape (text : List Char) : unescape? (escape text) = some text := by
  induction text with
  | nil => rfl
  | cons c rest ih =>
    have : escape (c :: rest) = escapeChar c ++ escape rest := rfl
    rw [unescape?] at ih ⊢
    rw [this, joinPieces?_pieces?_escapeChar, ih]
    rfl

end AttachmentGrammar.Json
