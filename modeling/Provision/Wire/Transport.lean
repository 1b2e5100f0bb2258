/-
  Provision.Wire.Transport

  A connection as the server sees it: both halves, and whether shutting it down
  will fail.
-/
import Provision.Wire.Source
import Provision.Wire.Sink

namespace Provision

/-- A connection: bytes to come, bytes to go. -/
structure Transport where
  source : Source
  sink : Sink
  /-- The failure that a shutdown will report, if any. -/
  shutdownFault : Option IoError
deriving DecidableEq

namespace Transport

/-- A connection on which these bytes arrive before the peer ends the stream, and
which takes every byte written. -/
def ofBytes (bytes : Bytes) : Transport := ⟨[.data bytes, .data []], .unlimited, none⟩

/-- Writes all of `data` in pieces of at most `chunk` bytes. -/
def sendAll (chunk : Nat) (data : Bytes) (t : Transport) : Except IoError Unit × Transport :=
  let (result, sink) := t.sink.sendAll chunk data
  (result, { t with sink := sink })

def shutdown (t : Transport) : Except IoError Unit × Transport :=
  (match t.shutdownFault with
    | none => .ok ()
    | some e => .error e,
   { t with sink := t.sink.shutdown })

end Transport

end Provision
