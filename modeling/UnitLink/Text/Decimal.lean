/-! Unsigned decimal numerals with a largest admitted value. A numeral is one or
more ASCII digits after an optional plus sign. -/
namespace UnitLink.Text

inductive NumeralFault where
  | empty
  | badDigit
  | tooLarge
  deriving DecidableEq, Repr

def NumeralFault.message : NumeralFault → String
  | .empty => "cannot parse integer from empty string"
  | .badDigit => "invalid digit found in string"
  | .tooLarge => "number too large to fit in target type"

def digitValue (c : Char) : Option Nat :=
  if '0' ≤ c ∧ c ≤ '9' then some (c.toNat - '0'.toNat) else none

/-- Reads the digits from the most significant on. A bad digit is noticed before
the product overflows on it, an overflow before any later bad digit. -/
def digitsFrom (largest : Nat) : Nat → List Char → Except NumeralFault Nat
  | value, [] => .ok value
  | value, c :: cs =>
    match digitValue c with
    | none => .error .badDigit
    | some digit =>
      if 10 * value + digit ≤ largest then digitsFrom largest (10 * value + digit) cs
      else .error .tooLarge

def numeral (largest : Nat) : List Char → Except NumeralFault Nat
  | [] => .error .empty
  | ['+'] => .error .badDigit
  | '+' :: digits => digitsFrom largest 0 digits
  | digits => digitsFrom largest 0 digits

end UnitLink.Text
