import AttachmentGrammar.Json.Printer
import AttachmentGrammar.Proofs.Json.Token
/-!
Reading what is written. Both writers are one writer with two ways of spacing. Main statement: a
value whose strings are escaped texts and whose numbers are numerals is read from either text of it.
-/
namespace AttachmentGrammar.Json

variable {s s' rest : List Char} {fuel : Nat}

/-! One step of a reader. -/

theorem readValue_skipBlanks (fuel : Nat) (s : List Char) :
    readValue fuel (skipBlanks s) = readValue fuel s := by
  cases fuel with
  | zero => rfl
  | succ fuel => simp only [readValue, skipBlanks_skipBlanks]

theorem readItems_skipBlanks (fuel : Nat) (s : List Char) :
    readItems fuel (skipBlanks s) = readItems fuel s := by
  cases fuel with
  | zero => rfl
  | succ fuel => simp only [readItems, readValue_skipBlanks]

theorem readFields_skipBlanks (fuel : Nat) (s : List Char) :
    readFields fuel (skipBlanks s) = readFields fuel s := by
  cases fuel with
  | zero => rfl
  | succ fuel => simp only [readFields, skipBlanks_skipBlanks]

theorem readValue_append (h : ∀ c ∈ s, isBlank c = true) (fuel : Nat) (s' : List Char) :
    readValue fuel (s ++ s') = readValue fuel s' := by
  rw [← readValue_skipBlanks, skipBlanks_append h, readValue_skipBlanks]

theorem readValue_decimal (n fuel : Nat) (hrest : EndsNumber rest) :
    readValue (fuel + 1) (Text.decimal n ++ rest) = some (ofNat n, rest) := by
  have hread := readNumber_decimal n hrest
  obtain ⟨c, digits, hdigits⟩ := List.exists_cons_of_ne_nil (Text.decimal_ne_nil (n := n))
  have hc : c.isDigit = true := Text.isDigit_of_mem_decimal (n := n) (hdigits ▸ List.mem_cons_self)
  rw [hdigits, List.cons_append] at hread ⊢
  rw [readValue, skipBlanks_cons (isBlank_of_isDigit hc)]
  split
  case h_7 => rw [hread, Option.map_some, ofNat, hdigits]
  -- the other values start with no digit
  all_goals
    rename_i heq
    obtain ⟨rfl, -⟩ := List.cons.inj heq
    cases hc

theorem readValue_string {written : List Char} (h : readString s = some (written, rest)) :
    readValue (fuel + 1) ('"' :: s) = some (string written, rest) := by
  rw [readValue, skipBlanks_cons rfl]
  exact congrArg (Option.map _) h

theorem readValue_array {items : List Json} (h : readItems fuel s = some (items, rest)) :
    readValue (fuel + 1) ('[' :: s) = some (array items, rest) := by
  rw [readValue, skipBlanks_cons rfl]
  simp only
  rw [← readItems_skipBlanks] at h
  split
  · -- no item starts with a bracket that closes
    rename_i hs
    rw [hs] at h
    match fuel with
    | 0 | 1 => cases h
    | fuel + 2 => cases h
  · rw [h, Option.map_some]

theorem readValue_object {fields : List (List Char × Json)}
    (h : readFields fuel s = some (fields, rest)) :
    readValue (fuel + 1) ('{' :: s) = some (object fields, rest) := by
  rw [readValue, skipBlanks_cons rfl]
  simp only
  rw [← readFields_skipBlanks] at h
  split
  · rename_i hs
    rw [hs] at h
    cases fuel <;> cases h
  · rw [h, Option.map_some]

theorem readItems_last {item : Json} (h : readValue fuel s = some (item, s'))
    (hend : skipBlanks s' = ']' :: rest) : readItems (fuel + 1) s = some ([item], rest) := by
  simp only [readItems, h, hend]

theorem readItems_comma {item : Json} (h : readValue fuel s = some (item, s'))
    (hcomma : skipBlanks s' = ',' :: rest) :
    readItems (fuel + 1) s =
      (readItems fuel rest).map fun (items, rest) => (item :: items, rest) := by
  simp only [readItems, h, hcomma]

/-- A field up to the end of its value. -/
def ReadsField (fuel : Nat) (s : List Char) (field : List Char × Json) (rest : List Char) : Prop :=
  ∃ s₁ s₂ s₃, skipBlanks s = '"' :: s₁ ∧ readString s₁ = some (field.1, s₂) ∧
    skipBlanks s₂ = ':' :: s₃ ∧ readValue fuel s₃ = some (field.2, rest)

theorem readFields_last {field : List Char × Json} (h : ReadsField fuel s field s')
    (hend : skipBlanks s' = '}' :: rest) : readFields (fuel + 1) s = some ([field], rest) := by
  obtain ⟨s₁, s₂, s₃, hquote, hname, hcolon, hvalue⟩ := h
  simp only [readFields, hquote, hname, hcolon, hvalue, hend]

theorem readFields_comma {field : List Char × Json} (h : ReadsField fuel s field s')
    (hcomma : skipBlanks s' = ',' :: rest) :
    readFields (fuel + 1) s =
      (readFields fuel rest).map fun (fields, rest) => (field :: fields, rest) := by
  obtain ⟨s₁, s₂, s₃, hquote, hname, hcolon, hvalue⟩ := h
  simp only [readFields, hquote, hname, hcolon, hvalue, hcomma]

/-! Spacing. -/

/-- The blanks in front of what stands at a level, and behind a colon. -/
structure Spacing where
  line : Nat → List Char
  gap : List Char
  isBlank_line : ∀ level, ∀ c ∈ line level, isBlank c = true
  isBlank_gap : ∀ c ∈ gap, isBlank c = true

namespace Spacing

def compact : Spacing := ⟨fun _ => [], [], nofun, nofun⟩

@[simp] theorem line_compact (level : Nat) : compact.line level = [] := rfl

@[simp] theorem gap_compact : compact.gap = [] := rfl

def pretty : Spacing where
  line := breakLine
  gap := [' ']
  isBlank_line level c hc := by
    rcases List.mem_cons.mp hc with rfl | hc
    · rfl
    · rw [List.eq_of_mem_replicate hc]
      rfl
  isBlank_gap c hc := by
    rw [List.mem_singleton.mp hc]
    rfl

@[simp] theorem line_pretty : pretty.line = breakLine := rfl

@[simp] theorem gap_pretty : pretty.gap = [' '] := rfl

end Spacing

mutual

def write (sp : Spacing) (level : Nat) : Json → List Char
  | null => ['n', 'u', 'l', 'l']
  | bool value => writeBool value
  | number written => written
  | string written => quote written
  | array [] => ['[', ']']
  | array (item :: items) => '[' :: writeItems sp level (item :: items)
  | object [] => ['{', '}']
  | object (field :: fields) => '{' :: writeFields sp level (field :: fields)
termination_by structural j => j

def writeItems (sp : Spacing) (level : Nat) : List Json → List Char
  | [] => []
  | [item] => sp.line (level + 1) ++ write sp (level + 1) item ++ sp.line level ++ [']']
  | item :: items =>
    sp.line (level + 1) ++ write sp (level + 1) item ++ ',' :: writeItems sp level items
termination_by structural items => items

def writeFields (sp : Spacing) (level : Nat) : List (List Char × Json) → List Char
  | [] => []
  | [(name, value)] =>
    sp.line (level + 1) ++ quote name ++ ':' :: sp.gap ++ write sp (level + 1) value ++
      sp.line level ++ ['}']
  | (name, value) :: fields =>
    sp.line (level + 1) ++ quote name ++ ':' :: sp.gap ++ write sp (level + 1) value ++
      ',' :: writeFields sp level fields
termination_by structural fields => fields

end

mutual

theorem write_pretty (level : Nat) : (j : Json) → write .pretty level j = writePretty level j
  | null | bool _ | number _ | string _ | array [] | object [] => rfl
  | array (item :: items) => congrArg ('[' :: ·) (writeItems_pretty level (item :: items))
  | object (field :: fields) => congrArg ('{' :: ·) (writeFields_pretty level (field :: fields))
termination_by structural j => j

theorem writeItems_pretty (level : Nat) :
    (items : List Json) → writeItems .pretty level items = writePrettyItems level items
  | [] => rfl
  | [item] => by simp [writeItems, writePrettyItems, write_pretty (level + 1) item]
  | item :: item' :: items => by
    simp [writeItems, writePrettyItems, write_pretty (level + 1) item,
      writeItems_pretty level (item' :: items)]
termination_by structural items => items

theorem writeFields_pretty (level : Nat) : (fields : List (List Char × Json)) →
    writeFields .pretty level fields = writePrettyFields level fields
  | [] => rfl
  | [(name, value)] => by simp [writeFields, writePrettyFields, write_pretty (level + 1) value]
  | (name, value) :: field :: fields => by
    simp [writeFields, writePrettyFields, write_pretty (level + 1) value,
      writeFields_pretty level (field :: fields)]
termination_by structural fields => fields

end

mutual

theorem write_compact (level : Nat) : (j : Json) → write .compact level j = writeCompact j
  | null | bool _ | number _ | string _ | array [] | object [] => rfl
  | array (item :: items) =>
    congrArg ('[' :: ·) (writeItems_compact level (item :: items) (List.cons_ne_nil _ _))
  | object (field :: fields) =>
    congrArg ('{' :: ·) (writeFields_compact level (field :: fields) (List.cons_ne_nil _ _))
termination_by structural j => j

theorem writeItems_compact (level : Nat) : (items : List Json) → items ≠ [] →
    writeItems .compact level items = writeCompactItems items
  | [], h => absurd rfl h
  | [item], _ => by simp [writeItems, writeCompactItems, write_compact (level + 1) item]
  | item :: item' :: items, _ => by
    simp [writeItems, writeCompactItems, write_compact (level + 1) item,
      writeItems_compact level (item' :: items) (List.cons_ne_nil _ _)]
termination_by structural items => items

theorem writeFields_compact (level : Nat) : (fields : List (List Char × Json)) → fields ≠ [] →
    writeFields .compact level fields = writeCompactFields fields
  | [], h => absurd rfl h
  | [(name, value)], _ => by
    simp [writeFields, writeCompactFields, write_compact (level + 1) value]
  | (name, value) :: field :: fields, _ => by
    simp [writeFields, writeCompactFields, write_compact (level + 1) value,
      writeFields_compact level (field :: fields) (List.cons_ne_nil _ _)]
termination_by structural fields => fields

end

/-! Reading a written value. -/

/-- Every number in the value is a numeral and every string and name an escaped text. -/
inductive Written : Json → Prop where
  | null : Written null
  | bool (value : Bool) : Written (bool value)
  | number (n : Nat) : Written (ofNat n)
  | string (text : List Char) : Written (string (escape text))
  | array {items : List Json} (hitems : ∀ item ∈ items, Written item) : Written (array items)
  | object {fields : List (List Char × Json)}
      (hnames : ∀ field ∈ fields, ∃ name, field.1 = escape name)
      (hvalues : ∀ field ∈ fields, Written field.2) : Written (object fields)

/-- Wherever the value is written, it is read up to its end with two steps for every character. -/
def Reads (sp : Spacing) (j : Json) : Prop :=
  ∀ level fuel rest, EndsNumber rest → 2 * (write sp level j).length ≤ fuel + 1 →
    readValue (fuel + 1) (write sp level j ++ rest) = some (j, rest)

variable {sp : Spacing} {level : Nat}

theorem skipBlanks_line (sp : Spacing) (level : Nat) (s : List Char) :
    skipBlanks (sp.line level ++ s) = skipBlanks s :=
  skipBlanks_append (sp.isBlank_line level)

theorem endsNumber_line (sp : Spacing) (level : Nat) {s : List Char} (h : EndsNumber s) :
    EndsNumber (sp.line level ++ s) :=
  endsNumber_append (sp.isBlank_line level) h

theorem readItems_writeItems {items : List Json} (hne : items ≠ [])
    (hread : ∀ item ∈ items, Reads sp item)
    (hfuel : 2 * (writeItems sp level items).length ≤ fuel) :
    readItems fuel (writeItems sp level items ++ rest) = some (items, rest) := by
  induction items generalizing fuel with
  | nil => exact absurd rfl hne
  | cons item items ih =>
    obtain ⟨hitem, hitems⟩ := List.forall_mem_cons.mp hread
    -- only the last item is followed by the bracket
    cases items with
    | nil =>
      simp only [writeItems, List.length_append, List.length_singleton] at hfuel
      obtain ⟨fuel, rfl⟩ : ∃ n, fuel = n + 2 := ⟨fuel - 2, by omega⟩
      have hvalue := hitem (level + 1) fuel (sp.line level ++ ']' :: rest)
        (endsNumber_line sp level (endsNumber_cons (by decide))) (by omega)
      rw [← readValue_append (sp.isBlank_line (level + 1))] at hvalue
      simp only [writeItems, List.append_assoc, List.singleton_append]
      exact readItems_last hvalue (skipBlanks_line sp level _)
    | cons item' items =>
      simp only [writeItems, List.length_append, List.length_cons] at hfuel
      obtain ⟨fuel, rfl⟩ : ∃ n, fuel = n + 2 := ⟨fuel - 2, by omega⟩
      have hvalue := hitem (level + 1) fuel (',' :: (writeItems sp level (item' :: items) ++ rest))
        (endsNumber_cons (by decide)) (by omega)
      rw [← readValue_append (sp.isBlank_line (level + 1))] at hvalue
      have hrest : readItems (fuel + 1) (writeItems sp level (item' :: items) ++ rest) =
          some (item' :: items, rest) := ih (List.cons_ne_nil _ _) hitems (by omega)
      simp only [writeItems, List.append_assoc, List.cons_append]
      rw [readItems_comma hvalue rfl, hrest]
      rfl

theorem readsField_write (level : Nat) {field : List Char × Json}
    (hname : ∃ name, field.1 = escape name) (hread : Reads sp field.2) (hrest : EndsNumber rest)
    (hfuel : 2 * (write sp level field.2).length ≤ fuel + 1) :
    ReadsField (fuel + 1) (sp.line level ++
      (quote field.1 ++ ':' :: (sp.gap ++ (write sp level field.2 ++ rest)))) field rest := by
  obtain ⟨name, hname⟩ := hname
  refine ⟨field.1 ++ '"' :: ':' :: (sp.gap ++ (write sp level field.2 ++ rest)), _, _, ?_,
    hname ▸ readString_escape name _, rfl, ?_⟩
  · rw [skipBlanks_line, quote]
    simp [skipBlanks_cons (c := '"') rfl]
  · rw [readValue_append sp.isBlank_gap]
    exact hread level fuel rest hrest hfuel

theorem readFields_writeFields {fields : List (List Char × Json)} (hne : fields ≠ [])
    (hnames : ∀ field ∈ fields, ∃ name, field.1 = escape name)
    (hread : ∀ field ∈ fields, Reads sp field.2)
    (hfuel : 2 * (writeFields sp level fields).length ≤ fuel) :
    readFields fuel (writeFields sp level fields ++ rest) = some (fields, rest) := by
  induction fields generalizing fuel with
  | nil => exact absurd rfl hne
  | cons field fields ih =>
    obtain ⟨hname, hnames⟩ := List.forall_mem_cons.mp hnames
    obtain ⟨hvalue, hvalues⟩ := List.forall_mem_cons.mp hread
    cases fields with
    | nil =>
      simp only [writeFields, List.length_append, List.length_cons] at hfuel
      obtain ⟨fuel, rfl⟩ : ∃ n, fuel = n + 2 := ⟨fuel - 2, by omega⟩
      have hfield : ReadsField (fuel + 1) _ field (sp.line level ++ '}' :: rest) :=
        readsField_write (level + 1) hname hvalue
          (endsNumber_line sp level (endsNumber_cons (by decide))) (by omega)
      simp only [writeFields, List.append_assoc, List.cons_append, List.nil_append]
      exact readFields_last hfield (skipBlanks_line sp level _)
    | cons field' fields =>
      simp only [writeFields, List.length_append, List.length_cons] at hfuel
      obtain ⟨fuel, rfl⟩ : ∃ n, fuel = n + 2 := ⟨fuel - 2, by omega⟩
      have hfield : ReadsField (fuel + 1) _ field
          (',' :: (writeFields sp level (field' :: fields) ++ rest)) :=
        readsField_write (level + 1) hname hvalue (endsNumber_cons (by decide)) (by omega)
      have hrest : readFields (fuel + 1) (writeFields sp level (field' :: fields) ++ rest) =
          some (field' :: fields, rest) := ih (List.cons_ne_nil _ _) hnames hvalues (by omega)
      simp only [writeFields, List.append_assoc, List.cons_append]
      rw [readFields_comma hfield rfl, hrest]
      rfl

theorem reads_of_written (sp : Spacing) {j : Json} (h : Written j) : Reads sp j := by
  induction h with
  | null =>
    intro level fuel rest _ _
    rfl
  | bool value =>
    intro level fuel rest _ _
    cases value <;> rfl
  | number n =>
    intro level fuel rest hrest _
    exact readValue_decimal n fuel hrest
  | string text =>
    intro level fuel rest _ _
    simp only [write, quote, List.append_assoc, List.cons_append, List.nil_append]
    exact readValue_string (readString_escape text rest)
  | @array items _ ih =>
    intro level fuel rest _ hfuel
    cases items with
    | nil => rfl
    | cons item items =>
      simp only [write, List.length_cons] at hfuel
      exact readValue_array (readItems_writeItems (List.cons_ne_nil _ _) ih (by omega))
  | @object fields hnames _ ih =>
    intro level fuel rest _ hfuel
    cases fields with
    | nil => rfl
    | cons field fields =>
      simp only [write, List.length_cons] at hfuel
      exact readValue_object (readFields_writeFields (List.cons_ne_nil _ _) hnames ih (by omega))

theorem parse?_write (sp : Spacing) {j : Json} (h : Written j) :
    parse? (String.ofList (write sp 0 j)) = some j := by
  have hread := reads_of_written sp h 0 (2 * (write sp 0 j).length + 1) [] endsNumber_nil (by omega)
  rw [List.append_nil] at hread
  simp [parse?, String.toList_ofList, hread, skipBlanks]

/-- What is written over several lines is read back. -/
theorem parse?_pretty {j : Json} (h : Written j) : parse? j.pretty = some j := by
  rw [pretty, ← write_pretty]
  exact parse?_write .pretty h

theorem parse?_compact {j : Json} (h : Written j) : parse? j.compact = some j := by
  rw [compact, ← write_compact 0]
  exact parse?_write .compact h

end AttachmentGrammar.Json
