/-
  Provision.Wire.IoError

  The ways a read or a write on a connection can fail, and which of them pass
  when the call is simply made again.
-/

namespace Provision

/-- A failed call on a connection. -/
inductive IoError where
  | interrupted
  | wouldBlock
  | connectionReset
  | connectionAborted
  | brokenPipe
  | timedOut
  | unexpectedEof
  /-- A write was accepted without taking a single byte. -/
  | writeZero
  /-- A failure of any other kind, with its text. -/
  | other (text : String)
deriving DecidableEq, Repr

namespace IoError

def message : IoError → String
  | interrupted => "operation interrupted"
  | wouldBlock => "operation would block"
  | connectionReset => "connection reset"
  | connectionAborted => "connection aborted"
  | brokenPipe => "broken pipe"
  | timedOut => "timed out"
  | unexpectedEof => "unexpected end of file"
  | writeZero => "write zero"
  | other text => text

/-- A transient failure says nothing about the connection: the call is repeated. -/
def isTransient : IoError → Bool
  | interrupted | wouldBlock => true
  | _ => false

end IoError

end Provision
