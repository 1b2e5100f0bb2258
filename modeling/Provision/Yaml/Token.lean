/-
  Provision.Yaml.Token

  The tokens of a YAML stream. Indentation appears as explicit starts and ends of
  blocks, so that the reader of nodes needs no columns. Anchors, aliases and tags have
  no token: a stream that uses them is refused.
-/

namespace Provision.Yaml

/-- A token of a stream. -/
inductive Token where
  | versionDirective
  | documentStart
  | documentEnd
  | blockSequenceStart
  | blockMappingStart
  /-- The innermost block ends. -/
  | blockEnd
  | flowSequenceStart
  | flowSequenceEnd
  | flowMappingStart
  | flowMappingEnd
  | blockEntry
  | flowEntry
  | key
  | value
  /-- A scalar, and whether it was written plain. -/
  | scalar (text : String) (plain : Bool)
deriving DecidableEq

end Provision.Yaml
