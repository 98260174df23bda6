/-
Unsigned integers as text: at most one plus sign, then ASCII digits only, with a
value that fits a given limit.

Three things can be wrong, and they are told apart: the text is empty, a character
is no digit, the value is too large. The digits are read from left to right, so the
first of the last two faults that is met is the one reported.
-/
set_option autoImplicit false

namespace SymbolQuery.Text

/-- Why a text is no unsigned integer. -/
inductive IntegerFault
  | empty
  | invalidDigit
  | tooLarge
  deriving DecidableEq, Repr

/-- The wording of a fault. -/
def IntegerFault.message : IntegerFault → String
  | .empty => "cannot parse integer from empty string"
  | .invalidDigit => "invalid digit found in string"
  | .tooLarge => "number too large to fit in target type"

/-- The value of an ASCII digit. -/
def digitValue? (c : Char) : Option Nat :=
  if '0' ≤ c ∧ c ≤ '9' then some (c.toNat - '0'.toNat) else none

/-- Reads digits onto `acc`, refusing a value above `limit`. -/
def readDigits (limit : Nat) : Nat → List Char → Except IntegerFault Nat
  | acc, [] => .ok acc
  | acc, c :: cs =>
    match digitValue? c with
    | none => .error .invalidDigit
    | some d =>
      if acc * 10 + d ≤ limit then readDigits limit (acc * 10 + d) cs else .error .tooLarge

/-- Reads an unsigned integer of at most `limit`. -/
def readUnsigned (limit : Nat) : List Char → Except IntegerFault Nat
  | [] => .error .empty
  | ['+'] => .error .invalidDigit
  | '+' :: c :: cs => readDigits limit 0 (c :: cs)
  | c :: cs => readDigits limit 0 (c :: cs)

/-- The largest value of 32 bits. -/
def max32 : Nat := 4294967295

/-- The largest value of 64 bits. -/
def max64 : Nat := 18446744073709551615

/-- The integer of a text, or `none`. -/
def unsigned? (limit : Nat) (s : String) : Option Nat := (readUnsigned limit s.toList).toOption

end SymbolQuery.Text
