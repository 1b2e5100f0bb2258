/-
  Provision.Proofs.Text.Numeral

  Numbers as they are written in headers. The decimal numeral of a number is made of digits,
  at least one, and the reader of declared lengths takes it for that number.
-/
import Provision.Proofs.Http.LengthField
import Provision.Text.Utf8

namespace Provision.Http

/-- The bytes of the decimal numeral of a number. -/
def numeral (n : Nat) : Bytes := utf8 (toString n)

theorem utf8_singleton_digitChar {d : Nat} (h : d < 10) :
    utf8 (String.singleton d.digitChar) = [UInt8.ofNat (0x30 + d)] := by
  have hall : ∀ d < 10, utf8 (String.singleton d.digitChar) = [UInt8.ofNat (0x30 + d)] := by
    decide +kernel
  exact hall d h

/-- The last digit of a numeral stands after the numeral of the tens. -/
theorem numeral_eq (n : Nat) :
    numeral n = (if n < 10 then [] else numeral (n / 10)) ++ [UInt8.ofNat (0x30 + n % 10)] := by
  unfold numeral
  rw [Nat.toString_eq_repr, Nat.toString_eq_repr]
  split_ifs with h
  · rw [Nat.repr_of_lt h, utf8_singleton_digitChar h, Nat.mod_eq_of_lt h, List.nil_append]
  · rw [Nat.repr_of_ge (Nat.le_of_not_lt h), utf8_append,
      utf8_singleton_digitChar (Nat.mod_lt n (by decide))]

theorem isDigit_of_lt {d : Nat} (h : d < 10) : Byte.isDigit (UInt8.ofNat (0x30 + d)) = true := by
  have hall : ∀ d < 10, Byte.isDigit (UInt8.ofNat (0x30 + d)) = true := by decide
  exact hall d h

theorem digitValue_of_lt {d : Nat} (h : d < 10) : Byte.digitValue (UInt8.ofNat (0x30 + d)) = d := by
  have hall : ∀ d < 10, Byte.digitValue (UInt8.ofNat (0x30 + d)) = d := by decide
  exact hall d h

theorem numeral_ne_nil (n : Nat) : numeral n ≠ [] := by
  rw [numeral_eq]
  exact List.append_ne_nil_of_right_ne_nil _ (List.cons_ne_nil _ _)

theorem isDigit_of_mem_numeral (n : Nat) : ∀ b ∈ numeral n, Byte.isDigit b = true := by
  induction n using Nat.strong_induction_on with
  | _ n ih =>
    rw [numeral_eq, List.forall_mem_append, List.forall_mem_singleton]
    refine ⟨?_, isDigit_of_lt (Nat.mod_lt n (by decide))⟩
    split_ifs with h
    · simp
    · exact ih (n / 10) (Nat.div_lt_self (by omega) (by decide))

/-- Reading a numeral gives the number back. -/
theorem decimalValue_numeral (n : Nat) : decimalValue (numeral n) = n := by
  induction n using Nat.strong_induction_on with
  | _ n ih =>
    rw [numeral_eq, decimalValue_concat, digitValue_of_lt (Nat.mod_lt n (by decide))]
    split_ifs with h
    · rw [decimalValue_nil]
      omega
    · rw [ih (n / 10) (Nat.div_lt_self (by omega) (by decide))]
      omega

end Provision.Http
