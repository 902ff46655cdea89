import AttachmentGrammar.Proofs.Json.Plain
import AttachmentGrammar.Rule.Json
/-!
Rules read back. Main statement: the text that is written for a list of rules gives the list, on one
line or over several, whatever the line numbers below one long word, the patterns and the ranges.
-/
namespace AttachmentGrammar

open Json

namespace Cardinality

theorem written_toJson (c : Cardinality) : Written c.toJson := by
  have hhigh := written_getD_map (fun high : UInt32 => written_ofNat high.toNat) c.high
  refine written_ofFields ?_
  simp [hhigh]

theorem ofJson?_toJson (c : Cardinality) : ofJson? c.toJson = some c := by
  have hhigh : nullable? word? ((c.high.map fun high => ofNat high.toNat).getD .null) =
      some c.high := nullable?_getD_map nofun word?_ofNat c.high
  rw [toJson, ofJson?, record?_ofFields (by simp) (by simp)]
  simp [List.lookup_cons, hhigh]

theorem isPlain_toJson (depth : Nat) (c : Cardinality) : c.toJson.isPlain (depth + 1) = true := by
  have hword (n : UInt32) : (ofNat n.toNat).isPlain depth = true :=
    isPlain_ofNat (Nat.lt_trans n.toNat_lt_size (by decide))
  have hhigh := isPlain_getD_map hword c.high
  refine isPlain_ofFields ?_
  simp [hword, hhigh]

end Cardinality

namespace Token

theorem written_toJson (t : Token) : Written t.toJson := by
  have hcardinality := written_getD_map Cardinality.written_toJson t.cardinality
  refine written_ofFields ?_
  simp [hcardinality]

theorem ofJson?_toJson (t : Token) : ofJson? t.toJson = some t := by
  have hcardinality := nullable?_getD_map nofun Cardinality.ofJson?_toJson t.cardinality
  rw [toJson, ofJson?, record?_ofFields (by simp) (by simp)]
  simp [List.lookup_cons, hcardinality]

theorem isPlain_toJson (depth : Nat) (t : Token) : t.toJson.isPlain (depth + 2) = true := by
  have hcardinality := isPlain_getD_map (Cardinality.isPlain_toJson depth) t.cardinality
  refine isPlain_ofFields ?_
  simp [isPlain_ofText, hcardinality]

end Token

namespace Statement

theorem written_toJson (s : Statement) : Written s.toJson := by
  have hside := written_map Token.written_toJson
  cases s <;>
  · refine written_ofFields ?_
    simp [hside]

theorem isPlain_toJson (depth : Nat) (s : Statement) : s.toJson.isPlain (depth + 4) = true := by
  have hside := isPlain_map (Token.isPlain_toJson depth)
  cases s <;>
  · refine isPlain_ofFields ?_
    simp [isPlain_ofText, hside]

/-- The shape decides how the sides are read, of which it is one more field. -/
theorem ofJson?_ofFields {fields : List (String × Json)} {shape : String}
    (hplain : (ofFields fields).isPlain nesting = true)
    (hshape : (ofFields fields).record? [⟨"shape", .required⟩] = some [some (ofText shape)]) :
    ofJson? (ofFields fields) = ofShape? shape (ofFields fields) := by
  rw [ofFields] at hplain hshape ⊢
  simp only [ofJson?, if_pos hplain, hshape, text?_ofText, Option.bind_some]

theorem ofJson?_toJson (s : Statement) : ofJson? s.toJson = some s := by
  have hplain : s.toJson.isPlain nesting = true := isPlain_toJson 121 s
  have hside := listOf?_map Token.ofJson?_toJson
  cases s <;>
  · rw [toJson] at hplain ⊢
    rw [ofJson?_ofFields hplain (record?_ofFields (by simp) (by simp))]
    simp only [ofShape?, String.reduceEq, if_true, if_false]
    rw [record?_ofFields (by simp) (by simp)]
    simp [List.lookup_cons, hside]

end Statement

theorem Rule.written_toJson (r : Rule) : Written r.toJson := by
  refine written_ofFields ?_
  simp [Statement.written_toJson]

theorem Rule.ofJson?_toJson {r : Rule} (h : r.line < UInt64.size) : ofJson? r.toJson = some r := by
  rw [toJson, ofJson?, record?_ofFields (by simp) (by simp)]
  simp [List.lookup_cons, natBelow?_ofNat h, Statement.ofJson?_toJson]

variable {rules : List Rule}

/-- Rules are read back from either text that is written for them. -/
theorem rulesOfJson?_parse?_rulesToJson (h : ∀ rule ∈ rules, rule.line < UInt64.size) :
    (parse? (rulesToJson rules).compact).bind rulesOfJson? = some rules ∧
      (parse? (rulesToJson rules).pretty).bind rulesOfJson? = some rules := by
  have hwritten : Written (rulesToJson rules) := written_map Rule.written_toJson rules
  have hread : rulesOfJson? (rulesToJson rules) = some rules :=
    listOf?_map_of_mem fun rule hrule => Rule.ofJson?_toJson (h rule hrule)
  constructor
  · rw [parse?_compact hwritten, Option.bind_some, hread]
  · rw [parse?_pretty hwritten, Option.bind_some, hread]

def crateRules : List Rule := [
  ⟨18446744073709551615, .attachment [⟨⟨"\"lid\"\n📦"⟩, some ⟨5, some 2⟩⟩, ⟨⟨""⟩, none⟩] []⟩,
  ⟨0, .sourceAggregate [⟨⟨"a b|\x7b,\x7d"⟩, some ⟨4294967295, none⟩⟩]⟩,
  ⟨7, .targetAggregate []⟩]

/-- All three shapes, with patterns that no line of a grammar can hold and an empty range. -/
theorem rulesOfJson?_parse?_rulesToJson_crates :
    (∀ rule ∈ crateRules, rule.line < UInt64.size) ∧
      (parse? (rulesToJson crateRules).compact).bind rulesOfJson? = some crateRules ∧
        (parse? (rulesToJson crateRules).pretty).bind rulesOfJson? = some crateRules := by
  have hline : ∀ rule ∈ crateRules, rule.line < UInt64.size := by
    simp [crateRules, UInt64.size]
  exact ⟨hline, rulesOfJson?_parse?_rulesToJson hline⟩

end AttachmentGrammar
