import AttachmentGrammar.Proofs.Rule.Json
import AttachmentGrammar.Report.Json
/-!
Reports read back. Main statement: the text that is written for people gives the report that it was
written for, whatever the numbers, the names and the reasons in it.
-/
namespace AttachmentGrammar

open Json

namespace Role

theorem written_toJson (role : Role String) : Written role.toJson := by
  cases role <;>
  · refine written_ofFields ?_
    simp

@[simp] theorem namedTag?_ofText (tag : String) : namedTag? (ofText tag) = some tag :=
  text?_ofText tag

theorem ofJson?_toJson (role : Role String) : ofJson? role.toJson = some role := by
  -- what is read decides between the forms of a value, so the fields are opened and closed again
  cases role <;>
  · rw [toJson, ofFields, ofJson?, ← ofFields, record?_ofFields (by simp) (by simp)]
    simp [List.lookup_cons, ofTag?]

end Role

namespace EdgeViolation

theorem written_toJson (v : EdgeViolation) : Written v.toJson := by
  refine written_ofFields ?_
  simp

theorem ofJson?_toJson (v : EdgeViolation) : ofJson? v.toJson = some v := by
  rw [toJson, ofJson?, record?_ofFields (by simp) (by simp)]
  simp [List.lookup_cons]

end EdgeViolation

namespace CardinalityViolation

theorem written_toJson (v : CardinalityViolation) : Written v.toJson := by
  refine written_ofFields ?_
  simp [Role.written_toJson, Cardinality.written_toJson]

theorem ofJson?_toJson (v : CardinalityViolation) : ofJson? v.toJson = some v := by
  rw [toJson, ofJson?, record?_ofFields (by simp) (by simp)]
  simp [List.lookup_cons, Role.ofJson?_toJson, Cardinality.ofJson?_toJson]

end CardinalityViolation

namespace UnknownClass

theorem written_toJson (v : UnknownClass) : Written v.toJson := by
  refine written_ofFields ?_
  simp

theorem ofJson?_toJson (v : UnknownClass) : ofJson? v.toJson = some v := by
  rw [toJson, ofJson?, record?_ofFields (by simp) (by simp)]
  simp [List.lookup_cons]

end UnknownClass

namespace Report

theorem written_toJson (r : Report) : Written r.toJson := by
  have hedges := written_map EdgeViolation.written_toJson r.edges
  have hcardinalities := written_map CardinalityViolation.written_toJson r.cardinalities
  have hunknown := written_map UnknownClass.written_toJson r.unknownClasses
  refine written_ofFields ?_
  by_cases hnone : r.unknownClasses = []
  · simp [hnone, hedges, hcardinalities]
  · simp [hnone, hedges, hcardinalities, hunknown]

/-- A list of unknown classes that was left out is read as the empty one. -/
theorem ofJson?_toJson (r : Report) : ofJson? r.toJson = some r := by
  obtain ⟨edges, cardinalities, unknownClasses⟩ := r
  have hedges := listOf?_map EdgeViolation.ofJson?_toJson edges
  have hcardinalities := listOf?_map CardinalityViolation.ofJson?_toJson cardinalities
  have hunknown := listOf?_map UnknownClass.ofJson?_toJson unknownClasses
  cases unknownClasses with
  | nil =>
    rw [toJson, if_pos rfl, List.append_nil, ofJson?, record?_ofFields (by simp) (by simp)]
    simp_all [List.lookup_cons]
  | cons v unknownClasses =>
    rw [toJson, if_neg (by simp), ofJson?, record?_ofFields (by simp) (by simp)]
    simp_all [List.lookup_cons]

theorem ofJson?_parse?_pretty (r : Report) :
    (Json.parse? r.toJson.pretty).bind ofJson? = some r := by
  rw [Json.parse?_pretty r.written_toJson, Option.bind_some, ofJson?_toJson]

end Report

end AttachmentGrammar
