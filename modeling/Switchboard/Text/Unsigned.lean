/-!
# Reading unsigned integers

A decimal integer with an optional plus sign, bounded above. The characters are judged from left to
right, so the first that is wrong or too much decides which error is reported.
-/
namespace Switchboard.Text

/-- Why a text is no integer of the wanted range. -/
inductive IntegerError where
  | empty
  | invalidDigit
  | tooLarge
deriving DecidableEq, Repr

/-- The wording of an integer error. -/
def IntegerError.message : IntegerError → String
  | .empty => "cannot parse integer from empty string"
  | .invalidDigit => "invalid digit found in string"
  | .tooLarge => "number too large to fit in target type"

/-- The value of a decimal digit. -/
def digit? (c : Char) : Option Nat :=
  if '0' ≤ c ∧ c ≤ '9' then some (c.toNat - '0'.toNat) else none

/-- Reads digits onto `value` as long as it stays below `bound`. -/
def readDigits (bound value : Nat) : List Char → Except IntegerError Nat
  | [] => .ok value
  | c :: rest =>
    match digit? c with
    | none => .error .invalidDigit
    | some d =>
      if value * 10 + d < bound then readDigits bound (value * 10 + d) rest else .error .tooLarge

/-- Reads an integer below `bound`. A lone sign is no digit. -/
def readUnsigned (bound : Nat) (s : String) : Except IntegerError Nat :=
  match s.toList with
  | [] => .error .empty
  | ['+'] => .error .invalidDigit
  | '+' :: rest => readDigits bound 0 rest
  | cs => readDigits bound 0 cs

/-- One more than the largest 8-bit number. -/
abbrev bound8 : Nat := 1 <<< 8
/-- One more than the largest 16-bit number. -/
abbrev bound16 : Nat := 1 <<< 16
/-- One more than the largest 32-bit number. -/
abbrev bound32 : Nat := 1 <<< 32
/-- One more than the largest 64-bit number. -/
abbrev bound64 : Nat := 1 <<< 64

end Switchboard.Text
