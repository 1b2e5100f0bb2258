/-
  Provision.Yaml.Stream

  A whole YAML stream, which may hold one document and no more.
-/
import Provision.Yaml.Node.Reader
import Provision.Yaml.Token.Lexer

namespace Provision.Yaml

/-- What a stream holds. -/
inductive Stream where
  /-- The stream is not well formed, or holds more than one document. -/
  | malformed
  | empty
  | document (root : Node)

namespace Stream

/-- Ends a stream after its document: only markers of its end may follow. -/
def close (root : Node) (rest : List Token) : Stream :=
  if (rest.dropWhile (· = .documentEnd)).isEmpty then document root else malformed

/-- Reads a document that is expected to have a node. -/
def readBody (tokens : List Token) : Stream :=
  match Node.ofTokens? tokens with
  | none => malformed
  | some (root, rest) => close root rest

/-- Reads the document after its marker, where the node may be left out. -/
def readMarked (tokens : List Token) : Stream :=
  match tokens with
  | [] | .documentEnd :: _ => close .absent tokens
  | .documentStart :: _ | .versionDirective :: _ => malformed
  | tokens => readBody tokens

/-- Reads the document of a stream of tokens. -/
def ofTokens (tokens : List Token) : Stream :=
  match tokens with
  | [] => empty
  | .versionDirective :: .documentStart :: rest => readMarked rest
  | .versionDirective :: _ => malformed
  | .documentStart :: rest => readMarked rest
  | tokens => readBody tokens

/-- Reads a text. One byte order mark may stand in front. -/
def ofText (text : String) : Stream :=
  let chars := match text.toList with
    | c :: rest => if c = byteOrderMark then rest else c :: rest
    | [] => []
  if chars.all isAllowed then
    match tokens? (settleBreaks chars) with
    | none => malformed
    | some tokens => ofTokens tokens
  else malformed

end Stream

end Provision.Yaml
