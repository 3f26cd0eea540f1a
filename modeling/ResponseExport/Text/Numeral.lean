/-!
# `ResponseExport.Text.Numeral`: unsigned numbers in settings and queries

A numeral is an optional plus sign and one or more ASCII digits, leading zeros allowed, whose
value does not pass the limit of the number it is read for.
-/

set_option autoImplicit false

namespace ResponseExport.Text

/-- The largest number of 32 bits, `2^32 - 1`. -/
def max32 : Nat := 4294967295

/-- The largest number of 64 bits, `2^64 - 1`. -/
def max64 : Nat := 18446744073709551615

/-- Why a text is no numeral. -/
inductive NumeralError where
  /-- There is nothing to read. -/
  | empty
  /-- A character is no digit, or there is only a sign. -/
  | invalidDigit
  /-- The value is above the limit. -/
  | tooLarge
  deriving Repr, DecidableEq

/-- The wording of a numeral's fault. -/
def NumeralError.message : NumeralError → String
  | .empty => "cannot parse integer from empty string"
  | .invalidDigit => "invalid digit found in string"
  | .tooLarge => "number too large to fit in target type"

/-- The value of an ASCII digit. -/
def digit? (c : Char) : Option Nat :=
  if '0' ≤ c ∧ c ≤ '9' then some (c.toNat - 48) else none

/-- Reads digits behind the value `acc`, from left to right. The first fault counts. -/
def readDigits (limit : Nat) : Nat → List Char → Except NumeralError Nat
  | acc, [] => .ok acc
  | acc, c :: cs =>
    match digit? c with
    | none => .error .invalidDigit
    | some d =>
      if limit < 10 * acc + d then .error .tooLarge else readDigits limit (10 * acc + d) cs

/-- Reads a numeral of at most `limit`. -/
def readNumeral (limit : Nat) (s : String) : Except NumeralError Nat :=
  match s.toList with
  | [] => .error .empty
  | ['+'] => .error .invalidDigit
  | '+' :: cs => readDigits limit 0 cs
  | cs => readDigits limit 0 cs

end ResponseExport.Text
