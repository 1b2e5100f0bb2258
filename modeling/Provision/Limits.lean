/-
  Provision.Limits

  The bounds that a site puts on what it reads and composes.
-/

namespace Provision

/-- Sizes count bytes, except for the number of pages. -/
structure Limits where
  menuCapacity : Nat
  /-- Most bytes in a response head, status line through menu. -/
  headCapacity : Nat
  /-- Most bytes offered to one write call. -/
  sendChunk : Nat
  maxHeaderBytes : Nat
  /-- Largest body length that a request may declare. -/
  maxBodyBytes : Nat
  maxPages : Nat
deriving DecidableEq

namespace Limits

/-- The bounds used where nothing else is configured. -/
def standard : Limits where
  menuCapacity := 256
  headCapacity := 1024
  sendChunk := 1024
  maxHeaderBytes := 2048
  maxBodyBytes := 1024
  maxPages := 16

end Limits

end Provision
