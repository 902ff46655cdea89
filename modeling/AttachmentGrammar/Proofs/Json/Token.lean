import AttachmentGrammar.Json.Parser
import AttachmentGrammar.Proofs.Text
/-!
The numbers and strings that are written, read with any text after them. Main statements: a numeral
is read up to the first character that no number goes on with, and an escaped text up to its quote.
-/
namespace AttachmentGrammar.Json

variable {s rest : List Char} {c : Char}

/-! Blanks. -/

theorem isBlank_iff : isBlank c = true ↔ c = ' ' ∨ c = '\t' ∨ c = '\n' ∨ c = '\r' := by
  simp [isBlank, or_assoc]

theorem isBlank_of_isDigit (h : c.isDigit = true) : isBlank c = false := by
  rw [← Bool.not_eq_true, isBlank_iff]
  rintro (rfl | rfl | rfl | rfl) <;> cases h

theorem skipBlanks_append (h : ∀ c ∈ s, isBlank c = true) :
    skipBlanks (s ++ rest) = skipBlanks rest :=
  List.dropWhile_append_of_pos h

theorem skipBlanks_cons (h : isBlank c = false) : skipBlanks (c :: rest) = c :: rest :=
  List.dropWhile_cons_of_neg (Bool.eq_false_iff.mp h)

theorem skipBlanks_skipBlanks (s : List Char) : skipBlanks (skipBlanks s) = skipBlanks s := by
  induction s with
  | nil => rfl
  | cons c s ih =>
    cases hc : isBlank c with
    | true =>
      have hcons : skipBlanks (c :: s) = skipBlanks s := List.dropWhile_cons_of_pos hc
      rw [hcons, ih]
    | false => rw [skipBlanks_cons hc, skipBlanks_cons hc]

/-! Numbers. -/

/-- A number that stands before the text ends there. -/
def EndsNumber (rest : List Char) : Prop :=
  ∀ c ∈ rest.head?, c.isDigit = false ∧ c ≠ '.' ∧ c ≠ 'e' ∧ c ≠ 'E'

theorem endsNumber_nil : EndsNumber [] := nofun

theorem endsNumber_cons (h : c.isDigit = false ∧ c ≠ '.' ∧ c ≠ 'e' ∧ c ≠ 'E') :
    EndsNumber (c :: rest) := by
  intro c' hc
  cases hc
  exact h

theorem endsNumber_append (h : ∀ c ∈ s, isBlank c = true) (hrest : EndsNumber rest) :
    EndsNumber (s ++ rest) := by
  cases s with
  | nil => exact hrest
  | cons c s =>
    obtain rfl | rfl | rfl | rfl := isBlank_iff.mp (h c List.mem_cons_self) <;>
      exact endsNumber_cons (by decide)

theorem readDigits_append (hne : s ≠ []) (hs : ∀ c ∈ s, c.isDigit = true)
    (hrest : EndsNumber rest) : readDigits (s ++ rest) = some (s, rest) := by
  have hafter : afterDigits (s ++ rest) = (s, rest) := by
    rw [afterDigits, List.takeWhile_append_of_pos hs, List.dropWhile_append_of_pos hs]
    cases rest with
    | nil => simp
    | cons c rest => simp [(hrest c rfl).1]
  simp only [readDigits, hafter]

theorem readFraction_of_endsNumber (h : EndsNumber rest) : readFraction rest = some ([], rest) := by
  cases rest with
  | nil => rfl
  | cons c rest => simp [readFraction, (h c rfl).2.1]

theorem readExponent_of_endsNumber (h : EndsNumber rest) : readExponent rest = some ([], rest) := by
  match rest with
  | [] => rfl
  | [c] => simp [readExponent, (h c rfl).2.2]
  | c :: sign :: rest => simp [readExponent, (h c rfl).2.2]

/-- Only zero is written with a leading zero. -/
theorem eq_zero_of_decimal {n : Nat} {digits : List Char} (h : Text.decimal n = '0' :: digits) :
    n = 0 := by
  induction n using Nat.strongRecOn generalizing digits with
  | ind n ih =>
    by_cases hn : n < 10
    · have hdigit : ∀ n < 10, n.digitChar = '0' → n = 0 := by decide
      rw [Text.decimal, Nat.toDigits_of_lt_base hn] at h
      exact hdigit n hn (List.cons.inj h).1
    · rw [Text.decimal, Nat.toDigits_of_base_le (by decide) (Nat.le_of_not_lt hn)] at h
      obtain ⟨digits', hdigits⟩ : ∃ digits', Text.decimal (n / 10) = '0' :: digits' := by
        obtain ⟨c, cs, hc⟩ := List.exists_cons_of_ne_nil (Text.decimal_ne_nil (n := n / 10))
        rw [Text.decimal] at hc
        rw [hc] at h
        obtain ⟨rfl, -⟩ := List.cons.inj h
        exact ⟨cs, hc⟩
      have hzero : n / 10 = 0 := ih (n / 10) (by omega) hdigits
      omega

theorem readInteger_decimal (n : Nat) (hrest : EndsNumber rest) :
    readInteger (Text.decimal n ++ rest) = some (Text.decimal n, rest) := by
  obtain ⟨c, digits, hdigits⟩ := List.exists_cons_of_ne_nil (Text.decimal_ne_nil (n := n))
  have hread := readDigits_append Text.decimal_ne_nil
    (fun _ => Text.isDigit_of_mem_decimal (n := n)) hrest
  by_cases hc : c = '0'
  · subst hc
    obtain rfl := eq_zero_of_decimal hdigits
    rfl
  · rw [hdigits] at hread ⊢
    simpa [readInteger, hc] using hread

theorem readSign_decimal (n : Nat) (rest : List Char) :
    readSign (Text.decimal n ++ rest) = ([], Text.decimal n ++ rest) := by
  obtain ⟨c, digits, hdigits⟩ := List.exists_cons_of_ne_nil (Text.decimal_ne_nil (n := n))
  have hc : c ≠ '-' := by
    rintro rfl
    exact Text.not_mem_decimal (n := n) rfl (hdigits ▸ List.mem_cons_self)
  simp [hdigits, readSign, hc]

theorem readNumber_decimal (n : Nat) (hrest : EndsNumber rest) :
    readNumber (Text.decimal n ++ rest) = some (Text.decimal n, rest) := by
  simp [readNumber, readSign_decimal, readInteger_decimal n hrest,
    readFraction_of_endsNumber hrest, readExponent_of_endsNumber hrest]

/-! Strings. -/

theorem untilQuote_cons (hq : c ≠ '"') (hb : c ≠ '\\') :
    untilQuote (c :: s) = (untilQuote s).map fun (body, rest) => (c :: body, rest) := by
  rw [untilQuote.eq_def]
  split <;> simp_all

theorem untilQuote_escapeChar (c : Char) (s : List Char) :
    untilQuote (escapeChar c ++ s) =
      (untilQuote s).map fun (body, rest) => (escapeChar c ++ body, rest) := by
  unfold escapeChar
  split
  · cases h : untilQuote s <;> simp [untilQuote, h]
  · rename_i h
    split
    · rename_i hc
      -- the digits of an escape by number end no string
      have hhex : ∀ n < 16, n.digitChar ≠ '"' ∧ n.digitChar ≠ '\\' := by decide
      obtain ⟨hq, hb⟩ := hhex (c.toNat / 16) (by omega)
      obtain ⟨hq', hb'⟩ := hhex (c.toNat % 16) (by omega)
      cases hs : untilQuote s <;> simp [untilQuote, untilQuote_cons, hq, hb, hq', hb', hs]
    · have hq : c ≠ '"' := fun he => by rw [he] at h; exact absurd h (by decide)
      have hb : c ≠ '\\' := fun he => by rw [he] at h; exact absurd h (by decide)
      exact untilQuote_cons hq hb

theorem untilQuote_escape (text rest : List Char) :
    untilQuote (escape text ++ '"' :: rest) = some (escape text, rest) := by
  induction text with
  | nil => rfl
  | cons c text ih =>
    have hcons : escape (c :: text) = escapeChar c ++ escape text := rfl
    rw [hcons, List.append_assoc, untilQuote_escapeChar, ih]
    rfl

theorem readString_escape (text rest : List Char) :
    readString (escape text ++ '"' :: rest) = some (escape text, rest) := by
  obtain ⟨pieces, hpieces, -⟩ := Option.bind_eq_some_iff.mp (unescape?_escape text)
  simp [readString, untilQuote_escape, hpieces]

end AttachmentGrammar.Json
