/-
  Provision.Http.ParseError

  Why no request could be read from a header.
-/
import Provision.Http.Request
import Provision.Wire.IoError

namespace Provision.Http

/-- Why no request could be read. -/
inductive ParseError where
  /-- The stream ended inside the header. -/
  | peerClosed
  | io (error : IoError)
  /-- The bytes at hand hold no blank line. -/
  | incomplete
  | pathTooLong
  /-- The target holds a line break, is not UTF-8, or never ends. -/
  | malformedRequestLine
  /-- The length field occurs twice, is no number, or cannot be represented. -/
  | invalidContentLength
  | headerTooLarge (bound : Nat)
  | bodyTooLarge (bound : Nat)
deriving DecidableEq

namespace ParseError

def message : ParseError → String
  | peerClosed => "connection closed by peer"
  | io error => "connection error: " ++ error.message
  | incomplete => "header terminator not seen yet"
  | pathTooLong => "request target longer than " ++ toString maxPathLength ++ " bytes"
  | malformedRequestLine => "malformed request line"
  | invalidContentLength => "invalid Content-Length header"
  | headerTooLarge bound => "request header exceeds " ++ toString bound ++ " bytes"
  | bodyTooLarge bound => "declared body exceeds " ++ toString bound ++ " bytes"

/-- True when the peer sent bytes that are refused, false when bytes are missing. -/
def isMalformed : ParseError → Bool
  | peerClosed | io _ | incomplete => false
  | _ => true

end ParseError

end Provision.Http
