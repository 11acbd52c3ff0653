/-!
# Unsigned integers in text

One leading plus sign and leading zeros are allowed. The digits are read from the left, and the
first problem met decides the error: a digit that is none, or a value above the limit.
-/
namespace ControlLoop.Text

/-- Why a text is not an unsigned integer of the wanted width. -/
inductive IntegerError where
  | empty
  | invalidDigit
  | tooLarge
  deriving DecidableEq, Repr

namespace IntegerError

def message : IntegerError → String
  | empty => "cannot parse integer from empty string"
  | invalidDigit => "invalid digit found in string"
  | tooLarge => "number too large to fit in target type"

end IntegerError

/-- The value of an ASCII decimal digit. -/
def digit? (c : Char) : Option Nat :=
  if '0' ≤ c ∧ c ≤ '9' then some (c.toNat - '0'.toNat) else none

/-- Reads digits onto `value`, which must stay at most `limit`. -/
def readDigits (limit : Nat) : Nat → List Char → Except IntegerError Nat
  | value, [] => .ok value
  | value, c :: rest =>
    match digit? c with
    | none => .error .invalidDigit
    | some d =>
      if value * 10 + d ≤ limit then readDigits limit (value * 10 + d) rest
      else .error .tooLarge

/-- Reads an unsigned integer of at most `limit`. -/
def readNat (limit : Nat) (text : String) : Except IntegerError Nat :=
  match text.toList with
  | [] => .error .empty
  | ['+'] => .error .invalidDigit
  | '+' :: digits => readDigits limit 0 digits
  | digits => readDigits limit 0 digits

/-- The greatest value of an unsigned word of 64 bits. -/
def word64Max : Nat := 18446744073709551615

/-- The greatest value of an unsigned word of 32 bits. -/
def word32Max : Nat := 4294967295

/-- The decimal digits of a number. -/
def digits (n : Nat) : List Char := Nat.toDigits 10 n

/-- A number in lower-case hexadecimal, padded with zeros to `width`. -/
def hex (width n : Nat) : String :=
  let digits := Nat.toDigits 16 n
  String.ofList (List.replicate (width - digits.length) '0' ++ digits)

end ControlLoop.Text
