import AttachmentGrammar.Proofs.Rule.Token
/-!
The written forms of numbers, ranges and tokens. Main statement: a word reads as a token exactly if
it is a pattern without braces, or one with one of the five forms of a range in braces after it.
-/
namespace AttachmentGrammar

/-! Numbers. -/

namespace Text

variable {s : List Char} {n : UInt32}

/-- Decimal digits, at least one, with a plus sign in front or not. Their value is below 2^32. -/
def Spells (s : List Char) (n : UInt32) : Prop :=
  ∃ digits, (s = digits ∨ s = '+' :: digits) ∧ digits ≠ [] ∧ (∀ c ∈ digits, c.isDigit = true) ∧
    Nat.ofDigitChars 10 digits 0 = n.toNat

theorem readDecimal_eq_some_iff {m : Nat} : readDecimal s = some m ↔
    s ≠ [] ∧ (∀ c ∈ s, c.isDigit = true) ∧ Nat.ofDigitChars 10 s 0 = m := by
  simp [readDecimal, and_assoc]

theorem dropPlus_eq_iff {digits : List Char} (h : ∀ c ∈ digits, c.isDigit = true) :
    dropPlus s = digits ↔ s = digits ∨ s = '+' :: digits := by
  constructor
  · intro hdrop
    unfold dropPlus at hdrop
    split at hdrop
    · exact .inr (hdrop ▸ rfl)
    · exact .inl hdrop
  · intro hs
    cases hs with
    | inl hs =>
      subst hs
      unfold dropPlus
      split
      · exact absurd (h '+' List.mem_cons_self) (by decide)
      · rfl
    | inr hs => rw [hs, dropPlus]

theorem readWord_eq_some_iff : readWord s = some n ↔ Spells s n := by
  have hvalue {m : Nat} : (if m < UInt32.size then some (UInt32.ofNat m) else none) = some n ↔
      m = n.toNat := by
    constructor
    · intro h
      split at h
      · rename_i hm
        obtain rfl := Option.some.inj h
        exact (UInt32.toNat_ofNat_of_lt' hm).symm
      · cases h
    · rintro rfl
      rw [if_pos n.toNat_lt_size, UInt32.ofNat_toNat]
  rw [readWord, Spells]
  constructor
  · intro h
    split at h
    · rename_i m hread
      obtain ⟨hne, hdigits, hm⟩ := readDecimal_eq_some_iff.mp hread
      exact ⟨_, (dropPlus_eq_iff hdigits).mp rfl, hne, hdigits, hm.trans (hvalue.mp h)⟩
    · cases h
  · rintro ⟨digits, hs, hne, hdigits, hn⟩
    rw [(dropPlus_eq_iff hdigits).mpr hs, readDecimal_eq_some_iff.mpr ⟨hne, hdigits, hn⟩]
    exact hvalue.mpr rfl

theorem Spells.ne_nil (h : Spells s n) : s ≠ [] := by
  obtain ⟨digits, hs, hne, -⟩ := h
  cases hs with
  | inl hs => exact hs ▸ hne
  | inr hs => exact hs ▸ List.cons_ne_nil _ _

theorem Spells.not_mem (h : Spells s n) {c : Char} (hdigit : c.isDigit = false) (hplus : c ≠ '+') :
    c ∉ s := by
  obtain ⟨digits, hs, -, hdigits, -⟩ := h
  have hc : c ∉ digits := fun hmem => by
    rw [hdigits c hmem] at hdigit
    cases hdigit
  cases hs with
  | inl hs => exact hs ▸ hc
  | inr hs => exact hs ▸ List.not_mem_cons_of_ne_of_not_mem hplus hc

end Text

/-! Ranges. -/

namespace Cardinality

open Text (Spells)

variable {range s t : List Char} {c : Cardinality}

/-- A bound left out on either side of the comma leaves that side open. -/
inductive SpelledBy : Cardinality → List Char → Prop
  | exactly {s n} : Spells s n → SpelledBy (.exactly n) s
  | atLeast {s n} : Spells s n → SpelledBy (.atLeast n) (s ++ [','])
  | atMost {s n} : Spells s n → SpelledBy (.atMost n) (',' :: s)
  | between {s t low high} : Spells s low → Spells t high → low ≤ high →
      SpelledBy ⟨low, some high⟩ (s ++ ',' :: t)
  | unbounded : SpelledBy .unbounded [',']

theorem SpelledBy.valid (h : c.SpelledBy range) : c.Valid := by
  cases h with
  | exactly =>
    rintro high ⟨⟩
    exact UInt32.le_refl _
  | atLeast => exact nofun
  | atMost => exact fun high _ => UInt32.zero_le
  | between _ _ hle =>
    rintro high ⟨⟩
    exact hle
  | unbounded => exact nofun

theorem readBound_eq_ok_iff {n : UInt32} : readBound s = .ok n ↔ Spells s n := by
  rw [← Text.readWord_eq_some_iff, readBound]
  cases Text.readWord s <;> simp

theorem readBounds_eq_ok_iff_of_comma {low : UInt32} {high : Option UInt32} (hs : ',' ∉ s)
    (ht : ',' ∉ t) : readBounds (s ++ ',' :: t) = .ok (low, high) ↔
      (s = [] ∧ low = 0 ∨ Spells s low) ∧
        (t = [] ∧ high = none ∨ ∃ n, high = some n ∧ Spells t n) := by
  have hempty (n : UInt32) : readBound [] ≠ .ok n := fun h => (readBound_eq_ok_iff.mp h).ne_nil rfl
  simp only [readBounds, List.splitOn_append_cons_self_of_not_mem hs, List.splitOn_eq_singleton ht,
    ← readBound_eq_ok_iff]
  cases s with
  | nil =>
    cases t with
    | nil => simp [hempty, bind, Except.bind, pure, Except.pure, eq_comm]
    | cons d t =>
      cases readBound (d :: t) <;>
        simp [hempty, bind, Except.bind, pure, Except.pure, Functor.map, Except.map, eq_comm]
  | cons c s =>
    cases t with
    | nil =>
      cases readBound (c :: s) <;>
        simp [hempty, bind, Except.bind, pure, Except.pure, eq_comm]
    | cons d t =>
      cases readBound (c :: s) <;> cases readBound (d :: t) <;>
        simp [bind, Except.bind, pure, Except.pure, Functor.map, Except.map, eq_comm]

theorem readBounds_eq_ok_iff_of_no_comma {low : UInt32} {high : Option UInt32} (hs : ',' ∉ s) :
    readBounds s = .ok (low, high) ↔ Spells s low ∧ high = some low := by
  rw [← readBound_eq_ok_iff]
  simp only [readBounds, List.splitOn_eq_singleton hs]
  cases readBound s with
  | error e => simp [bind, Except.bind]
  | ok n =>
    simp only [bind, Except.bind, pure, Except.pure, Except.ok.injEq, Prod.mk.injEq]
    constructor
    · rintro ⟨rfl, rfl⟩
      exact ⟨rfl, rfl⟩
    · rintro ⟨rfl, rfl⟩
      exact ⟨rfl, rfl⟩

theorem parse_eq_ok_iff_readBounds :
    Cardinality.parse range = .ok c ↔ readBounds range = .ok (c.low, c.high) ∧ c.Valid := by
  rw [Cardinality.parse]
  cases hbounds : readBounds range with
  | error e => simp [bind, Except.bind]
  | ok bounds =>
    obtain ⟨low, high⟩ := bounds
    simp only [bind, Except.bind, Except.ok.injEq, Prod.mk.injEq]
    cases hof : ofBounds? low high with
    | none =>
      constructor
      · intro h
        cases h
      · rintro ⟨⟨rfl, rfl⟩, hvalid⟩
        rw [ofBounds?_eq_some_iff.mpr ⟨rfl, hvalid⟩] at hof
        cases hof
    | some d =>
      obtain ⟨rfl, hvalid⟩ := ofBounds?_eq_some_iff.mp hof
      simp only [pure, Except.pure, Except.ok.injEq]
      constructor
      · rintro rfl
        exact ⟨⟨rfl, rfl⟩, hvalid⟩
      · rintro ⟨⟨rfl, rfl⟩, -⟩
        rfl

theorem SpelledBy.readBounds (h : c.SpelledBy range) : readBounds range = .ok (c.low, c.high) := by
  have hcomma {s : List Char} {n : UInt32} (hs : Spells s n) : ',' ∉ s := hs.not_mem rfl (by decide)
  have hnil : ',' ∉ ([] : List Char) := List.not_mem_nil
  cases h with
  | exactly hs => exact (readBounds_eq_ok_iff_of_no_comma (hcomma hs)).mpr ⟨hs, rfl⟩
  | atLeast hs =>
    exact (readBounds_eq_ok_iff_of_comma (hcomma hs) hnil).mpr ⟨.inr hs, .inl ⟨rfl, rfl⟩⟩
  | atMost ht =>
    exact (readBounds_eq_ok_iff_of_comma hnil (hcomma ht)).mpr ⟨.inl ⟨rfl, rfl⟩, .inr ⟨_, rfl, ht⟩⟩
  | between hs ht _ =>
    exact (readBounds_eq_ok_iff_of_comma (hcomma hs) (hcomma ht)).mpr ⟨.inr hs, .inr ⟨_, rfl, ht⟩⟩
  | unbounded =>
    exact (readBounds_eq_ok_iff_of_comma hnil hnil).mpr ⟨.inl ⟨rfl, rfl⟩, .inl ⟨rfl, rfl⟩⟩

theorem spelledBy_of_readBounds (h : readBounds range = .ok (c.low, c.high)) (hvalid : c.Valid) :
    c.SpelledBy range := by
  obtain ⟨low, high⟩ := c
  have hjoin : [','].intercalate (range.splitOn ',') = range := List.intercalate_splitOn ','
  have hparts {part : List Char} (hpart : part ∈ range.splitOn ',') : ',' ∉ part :=
    Text.not_mem_of_mem_splitOn hpart
  -- the cases are those of the list that `readBounds` looks at
  cases hsplit : range.splitOn ',' with
  | nil => exact absurd hsplit (List.splitOn_ne_nil ',' range)
  | cons s rest =>
    rw [hsplit] at hjoin hparts
    cases rest with
    | nil =>
      obtain rfl : s = range := by simpa using hjoin
      have hsides := (readBounds_eq_ok_iff_of_no_comma (hparts List.mem_cons_self)).mp h
      obtain ⟨hs, rfl : high = some low⟩ := hsides
      exact .exactly hs
    | cons t rest =>
      cases rest with
      | nil =>
        obtain rfl : s ++ ',' :: t = range := by simpa using hjoin
        have hsides := (readBounds_eq_ok_iff_of_comma (hparts List.mem_cons_self)
          (hparts (List.mem_cons_of_mem s List.mem_cons_self))).mp h
        obtain ⟨⟨rfl, rfl⟩ | hs, ⟨rfl, rfl⟩ | ⟨n, rfl, ht⟩⟩ := hsides
        · exact .unbounded
        · exact .atMost ht
        · exact .atLeast hs
        · exact .between hs ht (hvalid n rfl)
      | cons _ _ => simp [readBounds, hsplit] at h

theorem parse_eq_ok_iff : Cardinality.parse range = .ok c ↔ c.SpelledBy range := by
  rw [parse_eq_ok_iff_readBounds]
  exact ⟨fun h => spelledBy_of_readBounds h.1 h.2, fun h => ⟨h.readBounds, h.valid⟩⟩

theorem SpelledBy.not_brace (h : c.SpelledBy range) : '{' ∉ range ∧ '}' ∉ range := by
  have hspells {s : List Char} {n : UInt32} (hs : Spells s n) : '{' ∉ s ∧ '}' ∉ s :=
    ⟨hs.not_mem rfl (by decide), hs.not_mem rfl (by decide)⟩
  cases h with
  | exactly hs => exact hspells hs
  | atLeast hs => simp [hspells hs]
  | atMost ht => simp [hspells ht]
  | between hs ht _ => simp [hspells hs, hspells ht]
  | unbounded => decide

end Cardinality

/-! Tokens. -/

namespace Token

variable {w : List Char} {t : Token}

/-- A range stands in braces behind a pattern, and these are the only braces. -/
inductive SpelledBy : Token → List Char → Prop
  | plain {word} : '{' ∉ word → '}' ∉ word → SpelledBy ⟨⟨String.ofList word⟩, none⟩ word
  | ranged {pattern range c} : pattern ≠ [] → '{' ∉ pattern ++ range → '}' ∉ pattern ++ range →
      Cardinality.SpelledBy c range →
        SpelledBy ⟨⟨String.ofList pattern⟩, some c⟩ (pattern ++ '{' :: (range ++ ['}']))

theorem parse_eq_ok_iff : Token.parse w = .ok t ↔ t.SpelledBy w := by
  constructor
  · intro h
    obtain ⟨hopen, hclose, rfl⟩ | ⟨pattern, range, c, rfl, hne, hopen, hclose, hc, rfl⟩ :=
      cases_of_parse h
    · exact .plain hopen hclose
    · have hrange := Cardinality.parse_eq_ok_iff.mp hc
      refine .ranged hne ?_ ?_ hrange
      · exact List.not_mem_append hopen hrange.not_brace.1
      · exact List.not_mem_append hclose hrange.not_brace.2
  · intro h
    cases h with
    | plain hopen hclose => simp [Token.parse, Text.cut_eq_none.mpr hopen, hclose]
    | @ranged pattern range c hne hopen hclose hrange =>
      rw [List.mem_append, not_or] at hopen hclose
      have hfirst : Text.cut '{' (pattern ++ '{' :: (range ++ ['}'])) =
          some (pattern, range ++ ['}']) := Text.cut_append hopen.1
      have hsecond : Text.cut '}' (range ++ ['}']) = some (range, []) := Text.cut_append hclose.2
      simp [Token.parse, hfirst, hsecond, hne, hclose.1, hopen.2,
        Cardinality.parse_eq_ok_iff.mpr hrange, bind, Except.bind, pure, Except.pure]

end Token

end AttachmentGrammar
