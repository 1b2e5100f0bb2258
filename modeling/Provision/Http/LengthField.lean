/-
  Provision.Http.LengthField

  The declared body length. One part looks for the line that declares it, letter
  case ignored and anchored to the line break before it; the other reads the number
  that follows: blanks, digits, blanks, up to the next carriage return.
-/
import Provision.Bytes
import Provision.Http.ParseError

namespace Provision.Http

/-- What is known of the declared length. -/
inductive DeclaredLength where
  | absent
  /-- Inside the number: digits read, their value, and whether a blank follows them. -/
  | reading (digits : Nat) (value : Nat) (trailing : Bool)
  | known (value : Nat)
deriving DecidableEq

namespace DeclaredLength

/-- Lengths are below this bound, the number of values of eight bytes; a number that reaches
it is invalid. -/
def representable : Nat := 0x10000000000000000

/-- The length so far, zero when none is declared. -/
def value : DeclaredLength → Nat
  | absent => 0
  | reading _ v _ => v
  | known v => v

/-- Reads one byte. Only a number that is being read takes notice of it. -/
def push (maxBody : Nat) (declared : DeclaredLength) (b : UInt8) :
    Except ParseError DeclaredLength :=
  match declared with
  | reading digits value trailing =>
    if b == Byte.cr then
      if digits = 0 then .error .invalidContentLength else .ok (known value)
    else if Byte.isDigit b then
      let value' := value * 10 + Byte.digitValue b
      if trailing then .error .invalidContentLength
      else if representable ≤ value' then .error .invalidContentLength
      else if maxBody < value' then .error (.bodyTooLarge maxBody)
      else .ok (reading (digits + 1) value' false)
    else if Byte.isBlank b then .ok (reading digits value (decide (0 < digits)))
    else .error .invalidContentLength
  | _ => .ok declared

end DeclaredLength

/-- The search for the declaration, and what it declared. -/
structure LengthField where
  /-- How much of the line's beginning the last bytes match. -/
  matched : Nat
  declared : DeclaredLength
deriving DecidableEq

namespace LengthField

/-- The beginning of the line, `content-length: ` after a line break, in small letters. -/
def opening : Bytes :=
  [0x0D, 0x0A, 0x63, 0x6F, 0x6E, 0x74, 0x65, 0x6E, 0x74, 0x2D,
   0x6C, 0x65, 0x6E, 0x67, 0x74, 0x68, 0x3A, 0x20]

def initial : LengthField := ⟨0, .absent⟩

/-- Reads one byte: first as part of a number, then as part of the line's beginning. The
beginning holds a carriage return only at its head, so a mismatch starts over there. -/
def push (maxBody : Nat) (field : LengthField) (b : UInt8) : Except ParseError LengthField :=
  match field.declared.push maxBody b with
  | .error e => .error e
  | .ok declared =>
    if opening[field.matched]? = some (Byte.lower b) then
      if field.matched + 1 < opening.length then .ok ⟨field.matched + 1, declared⟩
      -- the whole beginning was matched: the number starts with the next byte
      else if declared = .absent then .ok ⟨0, .reading 0 0 false⟩
      else .error .invalidContentLength
    else .ok ⟨if b == Byte.cr then 1 else 0, declared⟩

end LengthField

end Provision.Http
