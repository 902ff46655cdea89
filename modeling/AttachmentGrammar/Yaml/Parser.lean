import AttachmentGrammar.Yaml.Basic
import AttachmentGrammar.Yaml.Token
/-!
Reading YAML values from tokens. Each reader returns what it read and the tokens that are left; a
value that is left out is an empty scalar.
-/
namespace AttachmentGrammar.Yaml

/-- Where a value stands: as a whole document or an item, as a key or value of a mapping without
brackets, or inside brackets. -/
inductive Setting where
  | block
  | entry
  | brackets
  deriving DecidableEq

mutual

def readNode : Nat → Setting → List Token → Option (Yaml × List Token)
  | 0, _, _ => none
  | fuel + 1, setting, tokens =>
    match tokens with
    | .scalar isQuoted text :: rest => some (scalar isQuoted text, rest)
    | .openSequence :: rest =>
      (readFlowItems fuel rest).map fun (items, rest) => (sequence items, rest)
    | .openMapping :: rest =>
      (readFlowEntries fuel rest).map fun (entries, rest) => (mapping entries, rest)
    | .blockSequence :: rest =>
      if setting = .brackets then none
      else match readItems fuel [.item, .blockEnd] rest with
        | some (items, .blockEnd :: rest) => some (sequence items, rest)
        | _ => none
    | .blockMapping :: rest =>
      if setting = .brackets then none
      else match readEntries fuel rest with
        | some (entries, .blockEnd :: rest) => some (mapping entries, rest)
        | _ => none
    | .item :: _ =>
      if setting = .entry then
        (readItems fuel [.item, .key, .value, .blockEnd] tokens).map fun (items, rest) =>
          (sequence items, rest)
      else none
    | _ => none

/-- A node, or nothing in front of one of the given tokens. -/
def readOptional : Nat → Setting → List Token → List Token → Option (Yaml × List Token)
  | 0, _, _, _ => none
  | fuel + 1, setting, stops, tokens =>
    if tokens.head?.any stops.contains then some (absent, tokens)
    else readNode fuel setting tokens

def readValue : Nat → Setting → List Token → List Token → Option (Yaml × List Token)
  | 0, _, _, _ => none
  | fuel + 1, setting, stops, tokens =>
    match tokens with
    | .value :: rest => readOptional fuel setting stops rest
    | tokens => some (absent, tokens)

def readItems : Nat → List Token → List Token → Option (List Yaml × List Token)
  | 0, _, _ => none
  | fuel + 1, stops, tokens =>
    match tokens with
    | .item :: rest => do
      let (item, rest) ← readOptional fuel .block stops rest
      let (items, rest) ← readItems fuel stops rest
      return (item :: items, rest)
    | tokens => some ([], tokens)

def readEntries : Nat → List Token → Option (List (Yaml × Yaml) × List Token)
  | 0, _ => none
  | fuel + 1, tokens =>
    match tokens with
    | .key :: rest => do
      let stops := [.key, .value, .blockEnd]
      let (key, rest) ← readOptional fuel .entry stops rest
      let (value, rest) ← readValue fuel .entry stops rest
      let (entries, rest) ← readEntries fuel rest
      return ((key, value) :: entries, rest)
    | tokens => some ([], tokens)

def readFlowItems : Nat → List Token → Option (List Yaml × List Token)
  | 0, _ => none
  | fuel + 1, tokens =>
    match tokens with
    | .closeSequence :: rest => some ([], rest)
    | tokens =>
      match readFlowItem fuel tokens with
      | some (item, .closeSequence :: rest) => some ([item], rest)
      | some (item, .comma :: rest) =>
        (readFlowItems fuel rest).map fun (items, rest) => (item :: items, rest)
      | _ => none

/-- A key in a sequence makes a mapping of one entry. Where the key is left out, the token in its
place counts as read. -/
def readFlowItem : Nat → List Token → Option (Yaml × List Token)
  | 0, _ => none
  | fuel + 1, tokens =>
    match tokens with
    | .key :: next :: rest => do
      let (key, rest) ←
        if [.value, .comma, .closeSequence].contains next then some (absent, rest)
        else readNode fuel .brackets (next :: rest)
      let (value, rest) ← readValue fuel .brackets [.comma, .closeSequence] rest
      return (mapping [(key, value)], rest)
    | tokens => readNode fuel .brackets tokens

def readFlowEntries : Nat → List Token → Option (List (Yaml × Yaml) × List Token)
  | 0, _ => none
  | fuel + 1, tokens =>
    match tokens with
    | .closeMapping :: rest => some ([], rest)
    | tokens =>
      match readFlowEntry fuel tokens with
      | some (entry, .closeMapping :: rest) => some ([entry], rest)
      | some (entry, .comma :: rest) =>
        (readFlowEntries fuel rest).map fun (entries, rest) => (entry :: entries, rest)
      | _ => none

def readFlowEntry : Nat → List Token → Option ((Yaml × Yaml) × List Token)
  | 0, _ => none
  | fuel + 1, tokens =>
    match tokens with
    | .key :: rest => do
      let (key, rest) ← readOptional fuel .brackets [.value, .comma, .closeMapping] rest
      let (value, rest) ← readValue fuel .brackets [.comma, .closeMapping] rest
      return ((key, value), rest)
    | tokens => (readNode fuel .brackets tokens).map fun (key, rest) => ((key, absent), rest)

end

/-- At most one document, with or without a marker in front; each token leads through fewer than
five readers. -/
def ofTokens? (tokens : List Token) : Option Yaml := do
  let fuel := 5 * (tokens.length + 1)
  let (value, rest) ← match tokens with
    | [] | [.documentStart] => some (absent, [])
    | .documentStart :: rest => readOptional fuel .block [.documentStart, .documentEnd] rest
    | tokens => readNode fuel .block tokens
  if rest.all (· = .documentEnd) then return value else none

def parse? (text : String) : Option Yaml := (tokens? text).bind ofTokens?

end AttachmentGrammar.Yaml
