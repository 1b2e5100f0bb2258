/-
  Provision.Http.RequestLine

  Method and target, read one byte at a time from the start of the header. The
  method is settled by the byte after it: until then nothing is known, so a header
  that stops right after `GET ` has no method yet.
-/
import Provision.Bytes
import Provision.Http.ParseError

namespace Provision.Http

/-- How much of the request line has been read. -/
inductive RequestLine where
  /-- The first bytes, from which the method is not settled yet. -/
  | opening (seen : Bytes)
  | target (method : Method) (seen : Bytes)
  /-- The space after the target was seen. -/
  | complete (method : Method) (path : Bytes)
  /-- The header opens with no known method. -/
  | other
deriving DecidableEq

namespace RequestLine

def getOpening : Bytes := [0x47, 0x45, 0x54, 0x20]

def postOpening : Bytes := [0x50, 0x4F, 0x53, 0x54, 0x20]

/-- Reads one byte of a target. A space ends it and a line break spoils it. -/
def pushTarget (method : Method) (seen : Bytes) (b : UInt8) : Except ParseError RequestLine :=
  if b == Byte.space then .ok (.complete method seen)
  else if Byte.isBreak b then .error .malformedRequestLine
  else if seen.length == maxPathLength then .error .pathTooLong
  else .ok (.target method (seen ++ [b]))

def push (line : RequestLine) (b : UInt8) : Except ParseError RequestLine :=
  match line with
  | opening seen =>
    -- the byte after a whole opening is already the first of the target
    if seen = getOpening then pushTarget .get [] b
    else if seen = postOpening then pushTarget .post [] b
    else if seen.length < postOpening.length then .ok (opening (seen ++ [b]))
    else .ok other
  | target method seen => pushTarget method seen b
  | complete method path => .ok (complete method path)
  | other => .ok other

/-- Method and target as far as they are known; a known method needs a whole target. -/
def settle : RequestLine → Except ParseError (Method × Bytes)
  | opening _ | other => .ok (.unknown, [])
  | target .. => .error .malformedRequestLine
  | complete method path => .ok (method, path)

end RequestLine

end Provision.Http
