/-
  Provision.Yaml.Node

  What a YAML document holds.
-/

namespace Provision.Yaml

/-- A node of a document. -/
inductive Node where
  /-- A scalar, and whether it was written plain. -/
  | scalar (text : String) (plain : Bool)
  | sequence (items : List Node)
  /-- A mapping, in the order it was written, repeated keys kept. -/
  | mapping (entries : List (Node × Node))

namespace Node

/-- The node where nothing was written. -/
def absent : Node := scalar "" true

end Node

end Provision.Yaml
