import AttachmentGrammar.Proofs.Json.Reading
/-!
Texts, numbers, lists and records as JSON values. Main statement: a record is read from an object of
fields with different names when none that is required is left out.
-/
namespace AttachmentGrammar

namespace Json

@[simp] theorem text?_ofText (s : String) : (ofText s).text? = some s := by
  simp [ofText, text?, unescape?_escape]

theorem natBelow?_ofNat {n limit : Nat} (h : n < limit) : (ofNat n).natBelow? limit = some n := by
  simp [ofNat, natBelow?, nat?, Text.readDecimal_decimal, h]

@[simp] theorem word?_ofNat (n : UInt32) : (ofNat n.toNat).word? = some n := by
  simp [word?, natBelow?_ofNat n.toNat_lt_size]

@[simp] theorem longWord?_ofNat (n : UInt64) : (ofNat n.toNat).longWord? = some n := by
  simp [longWord?, natBelow?_ofNat n.toNat_lt_size]

theorem listOf?_map_of_mem {α : Type} {toJson : α → Json} {ofJson? : Json → Option α}
    {items : List α} (h : ∀ a ∈ items, ofJson? (toJson a) = some a) :
    (array (items.map toJson)).listOf? ofJson? = some items := by
  simp only [listOf?, items?, Option.bind_some]
  induction items with
  | nil => rfl
  | cons a items ih =>
    obtain ⟨ha, hitems⟩ := List.forall_mem_cons.mp h
    rw [List.map_cons, List.mapM_cons, ha, ih hitems]
    rfl

theorem listOf?_map {α : Type} {toJson : α → Json} {ofJson? : Json → Option α}
    (h : ∀ a, ofJson? (toJson a) = some a) (items : List α) :
    (array (items.map toJson)).listOf? ofJson? = some items :=
  listOf?_map_of_mem fun a _ => h a

/-- A value that may be missing, where null stands for one that is. -/
theorem nullable?_getD_map {α : Type} {toJson : α → Json} {ofJson? : Json → Option α}
    (hnull : ∀ a, toJson a ≠ null) (h : ∀ a, ofJson? (toJson a) = some a) (a? : Option α) :
    nullable? ofJson? ((a?.map toJson).getD null) = some a? := by
  cases a? with
  | none => rfl
  | some a => simp [nullable?.eq_2 ofJson? (toJson a) (hnull a), h]

theorem fields?_ofFields (fields : List (String × Json)) :
    (ofFields fields).fields? = some fields := by
  simp only [ofFields, fields?]
  induction fields with
  | nil => rfl
  | cons field fields ih =>
    rw [List.map_cons, List.mapM_cons, ih, unescape?_escape]
    simp [String.ofList_toList]

/-! What is written. -/

@[simp] theorem written_ofText (s : String) : Written (ofText s) := .string s.toList

@[simp] theorem written_ofNat (n : Nat) : Written (ofNat n) := .number n

theorem written_map {α : Type} {toJson : α → Json} (h : ∀ a, Written (toJson a)) (items : List α) :
    Written (array (items.map toJson)) := by
  refine .array fun item hitem => ?_
  obtain ⟨a, -, rfl⟩ := List.mem_map.mp hitem
  exact h a

theorem written_getD_map {α : Type} {toJson : α → Json} (h : ∀ a, Written (toJson a))
    (a? : Option α) : Written ((a?.map toJson).getD null) := by
  cases a? with
  | none => exact .null
  | some a => exact h a

theorem written_ofFields {fields : List (String × Json)} (h : ∀ field ∈ fields, Written field.2) :
    Written (ofFields fields) := by
  refine .object (fun field hfield => ?_) fun field hfield => ?_
  all_goals obtain ⟨⟨name, value⟩, hmem, rfl⟩ := List.mem_map.mp hfield
  · exact ⟨name.toList, rfl⟩
  · exact h (name, value) hmem

end Json

/-! Records. -/

variable {α : Type} {fields : List (String × α)}

theorem Layout.filter_eq_toList_lookup (h : (fields.map (·.1)).Nodup) (name : String) :
    fields.filter (·.1 = name) = ((fields.lookup name).map (name, ·)).toList := by
  induction fields with
  | nil => rfl
  | cons field fields ih =>
    obtain ⟨name', value⟩ := field
    obtain ⟨hnew, h⟩ := List.nodup_cons.mp h
    by_cases hname : name' = name
    · subst hname
      have hnone : fields.filter (·.1 = name') = [] := by
        simp only [List.filter_eq_nil_iff, decide_eq_true_eq]
        intro field hfield hname
        exact hnew (List.mem_map.mpr ⟨field, hfield, hname⟩)
      simp [hnone]
    · have hne : (name == name') = false := by simpa using Ne.symm hname
      simp [hname, List.lookup_cons, hne, ih h]

theorem Layout.values?_named {spec : List Field} (hnodup : (fields.map (·.1)).Nodup)
    (hrequired : ∀ field ∈ spec, field.presence = .required →
      (fields.lookup field.name).isSome) :
    Layout.values? spec (.named fields) = some (spec.map fun field => fields.lookup field.name) := by
  have hvalue : ∀ field ∈ spec, namedValue? fields field = some (fields.lookup field.name) := by
    intro field hfield
    rw [namedValue?, filter_eq_toList_lookup hnodup]
    cases hlookup : fields.lookup field.name with
    | some value => rfl
    | none =>
      have hoptional : field.presence ≠ .required := by
        intro hp
        simpa [hlookup] using hrequired field hfield hp
      exact if_neg hoptional
  rw [values?]
  induction spec with
  | nil => rfl
  | cons field spec ih =>
    obtain ⟨hfirst, hothers⟩ := List.forall_mem_cons.mp hvalue
    rw [List.mapM_cons, hfirst, ih (List.forall_mem_cons.mp hrequired).2 hothers]
    rfl

theorem Json.record?_ofFields {spec : List Field} {fields : List (String × Json)}
    (hnodup : (fields.map (·.1)).Nodup)
    (hrequired : ∀ field ∈ spec, field.presence = .required →
      (fields.lookup field.name).isSome) :
    (Json.ofFields fields).record? spec = some (spec.map fun field => fields.lookup field.name) := by
  have hlayout : (Json.ofFields fields).layout? = some (.named fields) :=
    congrArg (Option.map Layout.named) (fields?_ofFields fields)
  rw [Json.record?, hlayout]
  exact Layout.values?_named hnodup hrequired

end AttachmentGrammar
