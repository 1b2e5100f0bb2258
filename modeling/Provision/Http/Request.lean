/-
  Provision.Http.Request

  What a request header says: the method, the target and the length of the body
  that follows it.
-/

namespace Provision.Http

/-- The methods that are told apart. -/
inductive Method where
  | get
  | post
  | unknown
deriving DecidableEq, Repr

namespace Method

def name : Method → String
  | get => "GET"
  | post => "POST"
  | unknown => "UNKNOWN"

end Method

/-- Most bytes in a request target or a page path. -/
def maxPathLength : Nat := 31

/-- A request header that was read. -/
structure Request where
  method : Method
  /-- The target; empty for an unknown method. -/
  path : String
  /-- The declared body length, zero when none is declared. -/
  contentLength : Nat
deriving DecidableEq

namespace Request

def empty : Request := ⟨.unknown, "", 0⟩

/-- A target of one byte is the root of the site. -/
def isRoot (request : Request) : Bool := request.path.utf8ByteSize == 1

end Request

end Provision.Http
