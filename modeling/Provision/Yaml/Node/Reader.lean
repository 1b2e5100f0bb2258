/-
  Provision.Yaml.Node.Reader

  Nodes from tokens. Each reader takes the tokens of one construct from the front and
  answers what is left. Where a node may be left out, `readOptional` reads one unless a
  token stands there that cannot start it.

  Every step takes a token or is followed by one that does, so twice the number of
  tokens bounds the nesting of the readers.
-/
import Provision.Yaml.Node
import Provision.Yaml.Token

namespace Provision.Yaml

/-- A reader's answer: what it read, and the tokens that are left. -/
abbrev Read (α : Type) := Option (α × List Token)

namespace Token

/-- True for tokens after which an item of a block sequence is left out. -/
def endsItem : Token → Bool
  | blockEntry | blockEnd => true
  | _ => false

/-- True for tokens after which a key or value of a block mapping, or an item of a sequence
at its column, is left out. -/
def endsBlockPart : Token → Bool
  | key | value | blockEnd => true
  | _ => false

/-- True for tokens before which a key of a flow mapping is left out. -/
def endsFlowKey : Token → Bool
  | value | flowEntry | flowMappingEnd => true
  | _ => false

/-- True for tokens before which a value of a flow mapping is left out. -/
def endsFlowValue : Token → Bool
  | flowEntry | flowMappingEnd => true
  | _ => false

/-- True for tokens before which the key of a pair in a flow sequence is left out. -/
def endsPairKey : Token → Bool
  | value | flowEntry | flowSequenceEnd => true
  | _ => false

/-- True for tokens before which the value of a pair in a flow sequence is left out. -/
def endsPairValue : Token → Bool
  | flowEntry | flowSequenceEnd => true
  | _ => false

end Token

namespace Node

/-- Where a node stands. -/
inductive Place where
  | block
  /-- In a block mapping, where a sequence may stand at the column of its key. -/
  | blockPart
  | flow
deriving DecidableEq

mutual

def readNode (place : Place) : Nat → List Token → Read Node
  | 0, _ => none
  | bound + 1, tokens =>
    match tokens with
    | .scalar text plain :: rest => some (scalar text plain, rest)
    | .flowSequenceStart :: rest =>
      (readFlowItems bound true rest).map fun (items, rest) => (sequence items, rest)
    | .flowMappingStart :: rest =>
      (readFlowEntries bound true rest).map fun (entries, rest) => (mapping entries, rest)
    | .blockSequenceStart :: rest =>
      if place = .flow then none
      else (readItems bound rest).map fun (items, rest) => (sequence items, rest)
    | .blockMappingStart :: rest =>
      if place = .flow then none
      else (readEntries bound rest).map fun (entries, rest) => (mapping entries, rest)
    | .blockEntry :: _ =>
      if place = .blockPart then
        (readFlushItems bound tokens).map fun (items, rest) => (sequence items, rest)
      else none
    | _ => none

/-- Reads a node that may be left out before the tokens of `ends`. -/
def readOptional (place : Place) (ends : Token → Bool) : Nat → List Token → Read Node
  | 0, _ => none
  | bound + 1, tokens =>
    if tokens.head?.any ends then some (absent, tokens) else readNode place bound tokens

/-- Reads the items of a block sequence and its end. -/
def readItems : Nat → List Token → Read (List Node)
  | 0, _ => none
  | bound + 1, tokens =>
    match tokens with
    | .blockEntry :: rest =>
      match readOptional .block Token.endsItem bound rest with
      | none => none
      | some (item, rest) => (readItems bound rest).map fun (items, rest) => (item :: items, rest)
    | .blockEnd :: rest => some ([], rest)
    | _ => none

/-- Reads the items of a block sequence that stands at the column of its key. -/
def readFlushItems : Nat → List Token → Read (List Node)
  | 0, _ => none
  | bound + 1, tokens =>
    match tokens with
    | .blockEntry :: rest =>
      match readOptional .block (fun t => t.endsItem || t.endsBlockPart) bound rest with
      | none => none
      | some (item, rest) =>
        (readFlushItems bound rest).map fun (items, rest) => (item :: items, rest)
    | _ => some ([], tokens)

/-- Reads the entries of a block mapping and its end. -/
def readEntries : Nat → List Token → Read (List (Node × Node))
  | 0, _ => none
  | bound + 1, tokens =>
    match tokens with
    | .key :: rest =>
      match readOptional .blockPart Token.endsBlockPart bound rest with
      | none => none
      | some (k, rest) =>
        match readBlockValue bound rest with
        | none => none
        | some (v, rest) =>
          (readEntries bound rest).map fun (entries, rest) => ((k, v) :: entries, rest)
    | .blockEnd :: rest => some ([], rest)
    | _ => none

/-- Reads the value of an entry of a block mapping, which may be missing. -/
def readBlockValue : Nat → List Token → Read Node
  | 0, _ => none
  | bound + 1, tokens =>
    match tokens with
    | .value :: rest => readOptional .blockPart Token.endsBlockPart bound rest
    | _ => some (absent, tokens)

/-- Reads the items of a flow sequence and its end. -/
def readFlowItems : Nat → Bool → List Token → Read (List Node)
  | 0, _, _ => none
  | bound + 1, first, tokens =>
    match tokens, first with
    | .flowSequenceEnd :: rest, _ => some ([], rest)
    | .flowEntry :: .flowSequenceEnd :: rest, false => some ([], rest)
    | .flowEntry :: rest, false => readFlowItem bound rest
    | tokens, true => readFlowItem bound tokens
    | _, false => none

/-- Reads one item of a flow sequence and those after it. A pair stands for a mapping of
one entry. -/
def readFlowItem : Nat → List Token → Read (List Node)
  | 0, _ => none
  | bound + 1, tokens =>
    match tokens with
    | .key :: rest =>
      match readPair bound rest with
      | none => none
      | some (pair, rest) =>
        (readFlowItems bound false rest).map fun (items, rest) => (mapping [pair] :: items, rest)
    | tokens =>
      match readNode .flow bound tokens with
      | none => none
      | some (item, rest) =>
        (readFlowItems bound false rest).map fun (items, rest) => (item :: items, rest)

/-- Reads the pair after a key's token in a flow sequence. A key that is left out takes the
token after it along. -/
def readPair : Nat → List Token → Read (Node × Node)
  | 0, _ => none
  | bound + 1, tokens =>
    match tokens with
    | t :: rest =>
      if t.endsPairKey then
        (readFlowValue Token.endsPairValue bound rest).map fun (v, rest) => ((absent, v), rest)
      else
        match readNode .flow bound tokens with
        | none => none
        | some (k, rest) =>
          (readFlowValue Token.endsPairValue bound rest).map fun (v, rest) => ((k, v), rest)
    | [] => none

/-- Reads a value in a flow collection, which may be missing. -/
def readFlowValue (ends : Token → Bool) : Nat → List Token → Read Node
  | 0, _ => none
  | bound + 1, tokens =>
    match tokens with
    | .value :: rest => readOptional .flow ends bound rest
    | _ => some (absent, tokens)

/-- Reads the entries of a flow mapping and its end. -/
def readFlowEntries : Nat → Bool → List Token → Read (List (Node × Node))
  | 0, _, _ => none
  | bound + 1, first, tokens =>
    match tokens, first with
    | .flowMappingEnd :: rest, _ => some ([], rest)
    | .flowEntry :: .flowMappingEnd :: rest, false => some ([], rest)
    | .flowEntry :: rest, false => readFlowEntry bound rest
    | tokens, true => readFlowEntry bound tokens
    | _, false => none

/-- Reads one entry of a flow mapping and those after it. A lone node is a key whose value is
left out. -/
def readFlowEntry : Nat → List Token → Read (List (Node × Node))
  | 0, _ => none
  | bound + 1, tokens =>
    match tokens with
    | .key :: rest =>
      match readOptional .flow Token.endsFlowKey bound rest with
      | none => none
      | some (k, rest) =>
        match readFlowValue Token.endsFlowValue bound rest with
        | none => none
        | some (v, rest) =>
          (readFlowEntries bound false rest).map fun (entries, rest) => ((k, v) :: entries, rest)
    | tokens =>
      match readNode .flow bound tokens with
      | none => none
      | some (k, rest) =>
        (readFlowEntries bound false rest).map fun (entries, rest) =>
          ((k, absent) :: entries, rest)

end

/-- Reads the node of a document. -/
def ofTokens? (tokens : List Token) : Read Node := readNode .block (2 * tokens.length + 2) tokens

end Node

end Provision.Yaml
