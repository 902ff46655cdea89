import AttachmentGrammar.Json.Plain
import AttachmentGrammar.Proofs.Json.Record
/-!
Values that can be held. Main statement: what is built of texts and of numbers below one long word
can be held, as far as its lists and records are nested no deeper than is allowed.
-/
namespace AttachmentGrammar.Json

/-! Numbers. -/

theorem le_ofDigitChars (digits : List Char) (n : Nat) : n ≤ Nat.ofDigitChars 10 digits n := by
  induction digits generalizing n with
  | nil => exact Nat.le_refl n
  | cons c digits ih =>
    rw [Nat.ofDigitChars_cons]
    exact Nat.le_trans (by omega) (ih _)

/-- Digits whose number fits in a long word are all appended. -/
theorem appendDigits_eq {digits : List Char} {n : Nat}
    (h : Nat.ofDigitChars 10 digits n < UInt64.size) :
    appendDigits n digits = (Nat.ofDigitChars 10 digits n, []) := by
  induction digits generalizing n with
  | nil => rfl
  | cons c digits ih =>
    rw [Nat.ofDigitChars_cons] at h ⊢
    have hfits : Nat.ofDigitChars 10 [c] n < UInt64.size :=
      Nat.lt_of_le_of_lt (le_ofDigitChars digits _) h
    rw [appendDigits, if_pos hfits]
    exact ih h

/-- Rounding adds one unit in the last place at most, and no number is smaller than its unit. -/
theorem roundToDouble_le (n : Nat) : roundToDouble n ≤ 2 * n := by
  by_cases hn : n = 0
  · subst hn
    decide
  have hunit : 2 ^ (n.log2 + 1 - 53) ≤ n :=
    Nat.le_trans (Nat.pow_le_pow_right (by decide) (by omega)) (Nat.log2_self_le hn)
  have hquotient := Nat.div_mul_le_self n (2 ^ (n.log2 + 1 - 53))
  rw [roundToDouble, Nat.pow_eq]
  split
  · rw [Nat.succ_mul]
    omega
  · omega

theorem isFiniteDecimal_whole {digits : List Char}
    (h : Nat.ofDigitChars 10 digits 0 < UInt64.size) : isFiniteDecimal digits [] 0 = true := by
  have hproduct : roundToDouble (Nat.ofDigitChars 10 digits 0) * roundToDouble 1 < overflow :=
    calc roundToDouble (Nat.ofDigitChars 10 digits 0) * roundToDouble 1
      _ = roundToDouble (Nat.ofDigitChars 10 digits 0) := Nat.mul_one _
      _ ≤ 2 * Nat.ofDigitChars 10 digits 0 := roundToDouble_le _
      _ < 2 * UInt64.size := Nat.mul_lt_mul_of_pos_left h (by decide)
      _ ≤ overflow := by decide +kernel
  simp [isFiniteDecimal, appendDigits_eq h, appendDigits, hproduct]

theorem isFinite_decimal {n : Nat} (h : n < UInt64.size) : isFinite (Text.decimal n) = true := by
  have hsign := readSign_decimal n []
  have hwhole := readInteger_decimal n endsNumber_nil
  rw [List.append_nil] at hsign hwhole
  have hvalue : Nat.ofDigitChars 10 (Text.decimal n) 0 = n :=
    Nat.ofDigitChars_toDigits (by decide) (by decide)
  have hdecimal : isFiniteDecimal (Text.decimal n) [] 0 = true :=
    isFiniteDecimal_whole (by rwa [hvalue])
  simp [isFinite, hsign, hwhole, readFraction_of_endsNumber endsNumber_nil,
    readExponent_of_endsNumber endsNumber_nil, powerOf, hdecimal]

/-! Values. -/

variable {depth : Nat}

theorem isText_escape (text : List Char) : isText (escape text) = true := by
  rw [isText, unescape?_escape, Option.isSome_some]

theorem isPlain_ofText (s : String) : (ofText s).isPlain depth = true := by
  rw [ofText, isPlain, isText_escape]

theorem isPlain_ofNat {n : Nat} (h : n < UInt64.size) : (ofNat n).isPlain depth = true := by
  rw [ofNat, isPlain, isFinite_decimal h]

theorem isPlain_getD_map {α : Type} {toJson : α → Json}
    (h : ∀ a, (toJson a).isPlain depth = true) (a? : Option α) :
    ((a?.map toJson).getD null).isPlain depth = true := by
  cases a? with
  | none => rfl
  | some a => exact h a

theorem isPlain_map {α : Type} {toJson : α → Json} (h : ∀ a, (toJson a).isPlain depth = true)
    (items : List α) : (array (items.map toJson)).isPlain (depth + 1) = true := by
  rw [isPlain]
  induction items with
  | nil => rfl
  | cons a items ih => rw [List.map_cons, arePlain, h, ih, Bool.and_self]

theorem isPlain_ofFields {fields : List (String × Json)}
    (h : ∀ field ∈ fields, field.2.isPlain depth = true) :
    (ofFields fields).isPlain (depth + 1) = true := by
  rw [ofFields, isPlain]
  induction fields with
  | nil => rfl
  | cons field fields ih =>
    obtain ⟨hfield, hfields⟩ := List.forall_mem_cons.mp h
    rw [List.map_cons, havePlainFields, isText_escape, hfield, ih hfields, Bool.and_self,
      Bool.and_self]

end AttachmentGrammar.Json
