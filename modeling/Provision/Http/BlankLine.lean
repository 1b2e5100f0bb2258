/-
  Provision.Http.BlankLine

  The end of the header: a CRLF right after a CRLF. A byte that breaks the sequence
  starts it over from nothing, also when that byte is a carriage return.
-/
import Provision.Bytes

namespace Provision.Http

/-- How much of the blank line the last bytes are. -/
inductive BlankLine where
  | nothing
  | cr
  | crLf
  | crLfCr
deriving DecidableEq

namespace BlankLine

/-- Reads one byte; true once it ends the header. -/
def push (seen : BlankLine) (b : UInt8) : Bool × BlankLine :=
  match seen with
  | nothing => (false, if b == Byte.cr then cr else nothing)
  | cr => (false, if b == Byte.lf then crLf else nothing)
  | crLf => (false, if b == Byte.cr then crLfCr else nothing)
  | crLfCr => if b == Byte.lf then (true, crLfCr) else (false, nothing)

end BlankLine

end Provision.Http
