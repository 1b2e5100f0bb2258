/-
  Provision.Text.Decimal

  Unsigned decimal numerals with an upper bound: an optional plus sign, then at
  least one digit. The first fault from the left decides the error.
-/

namespace Provision

/-- Why a text is not a numeral within its bound. -/
inductive NumeralError where
  | empty
  /-- A character is not a digit, or a sign stands alone. -/
  | invalidDigit
  | tooLarge
deriving DecidableEq, Repr

namespace NumeralError

def message : NumeralError → String
  | empty => "cannot parse integer from empty string"
  | invalidDigit => "invalid digit found in string"
  | tooLarge => "number too large to fit in target type"

end NumeralError

namespace Decimal

/-- Continues a numeral of value `value` over the remaining characters. -/
def readDigits (bound : Nat) (value : Nat) : List Char → Except NumeralError Nat
  | [] => .ok value
  | c :: rest =>
    if c.isDigit then
      let value' := value * 10 + (c.toNat - 48)
      if value' ≤ bound then readDigits bound value' rest else .error .tooLarge
    else
      .error .invalidDigit

/-- Reads a numeral that must not exceed `bound`. -/
def read (bound : Nat) (text : String) : Except NumeralError Nat :=
  match text.toList with
  | [] => .error .empty
  | ['+'] => .error .invalidDigit
  | '+' :: digits => readDigits bound 0 digits
  | digits => readDigits bound 0 digits

end Decimal

end Provision
