import AttachmentGrammar.Json.Basic
/-!
Writing JSON: on one line without blanks, or over several lines with two blanks for each level.
-/
namespace AttachmentGrammar.Json

def quote (written : List Char) : List Char := '"' :: written ++ ['"']

def writeBool : Bool → List Char
  | true => ['t', 'r', 'u', 'e']
  | false => ['f', 'a', 'l', 's', 'e']

def breakLine (level : Nat) : List Char := '\n' :: List.replicate (2 * level) ' '

mutual

def writeCompact : Json → List Char
  | null => ['n', 'u', 'l', 'l']
  | bool value => writeBool value
  | number written => written
  | string written => quote written
  | array items => '[' :: writeCompactItems items
  | object fields => '{' :: writeCompactFields fields
termination_by structural j => j

def writeCompactItems : List Json → List Char
  | [] => [']']
  | [item] => writeCompact item ++ [']']
  | item :: items => writeCompact item ++ ',' :: writeCompactItems items
termination_by structural items => items

def writeCompactFields : List (List Char × Json) → List Char
  | [] => ['}']
  | [(name, value)] => quote name ++ ':' :: writeCompact value ++ ['}']
  | (name, value) :: fields =>
    quote name ++ ':' :: writeCompact value ++ ',' :: writeCompactFields fields
termination_by structural fields => fields

end

mutual

/-- The level is that of the line on which the value starts. -/
def writePretty (level : Nat) : Json → List Char
  | null => ['n', 'u', 'l', 'l']
  | bool value => writeBool value
  | number written => written
  | string written => quote written
  | array [] => ['[', ']']
  | array (item :: items) => '[' :: writePrettyItems level (item :: items)
  | object [] => ['{', '}']
  | object (field :: fields) => '{' :: writePrettyFields level (field :: fields)
termination_by structural j => j

def writePrettyItems (level : Nat) : List Json → List Char
  | [] => []
  | [item] => breakLine (level + 1) ++ writePretty (level + 1) item ++ breakLine level ++ [']']
  | item :: items =>
    breakLine (level + 1) ++ writePretty (level + 1) item ++ ',' :: writePrettyItems level items
termination_by structural items => items

def writePrettyFields (level : Nat) : List (List Char × Json) → List Char
  | [] => []
  | [(name, value)] =>
    breakLine (level + 1) ++ quote name ++ ':' :: ' ' :: writePretty (level + 1) value ++
      breakLine level ++ ['}']
  | (name, value) :: fields =>
    breakLine (level + 1) ++ quote name ++ ':' :: ' ' :: writePretty (level + 1) value ++
      ',' :: writePrettyFields level fields
termination_by structural fields => fields

end

def compact (j : Json) : String := String.ofList j.writeCompact

def pretty (j : Json) : String := String.ofList (j.writePretty 0)

end AttachmentGrammar.Json
