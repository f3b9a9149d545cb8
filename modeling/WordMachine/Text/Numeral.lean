/-!
# Numerals

Numbers are written in base ten or base sixteen without leading zeros. They are
read digit by digit against a limit: the text is rejected at the first character
that is not a digit of the base, or at the first digit that carries the value to
the limit, whichever stands further left.
-/

namespace WordMachine.Numeral

/-! ## Writing -/

/-- The digits of `n` in base ten. -/
def decimal (n : Nat) : String := String.ofList (Nat.toDigits 10 n)

/-- The digits of `n` in base sixteen, the letters small. -/
def lowerHex (n : Nat) : String := String.ofList (Nat.toDigits 16 n)

/-- The digits of `n` in base sixteen, the letters capital. -/
def upperHex (n : Nat) : String := String.ofList ((Nat.toDigits 16 n).map Char.toUpper)

/-! ## Reading -/

/-- Why a text is not a numeral below its limit. -/
inductive ReadError
  | empty
  | invalidDigit
  | tooLarge
  deriving DecidableEq, Repr

/-- The wording of a reading failure. -/
def ReadError.message : ReadError → String
  | .empty => "cannot parse integer from empty string"
  | .invalidDigit => "invalid digit found in string"
  | .tooLarge => "number too large to fit in target type"

/-- The value of an ASCII digit of base sixteen, in either letter case. -/
def hexValue? (c : Char) : Option Nat :=
  if '0' ≤ c ∧ c ≤ '9' then some (c.toNat - 48)
  else if 'A' ≤ c ∧ c ≤ 'F' then some (c.toNat - 55)
  else if 'a' ≤ c ∧ c ≤ 'f' then some (c.toNat - 87)
  else none

/-- The value of a digit that belongs to `base`, for a base of at most sixteen. -/
def digitValue? (base : Nat) (c : Char) : Option Nat :=
  (hexValue? c).filter (· < base)

/-- Continues a numeral whose digits so far denote `value`. -/
def readDigits (base limit value : Nat) : List Char → Except ReadError Nat
  | [] => .ok value
  | c :: cs =>
    match digitValue? base c with
    | none => .error .invalidDigit
    | some digit =>
      if base * value + digit < limit then readDigits base limit (base * value + digit) cs
      else .error .tooLarge

/-- Reads a number below `limit`. One plus sign may stand before the digits, but no minus sign. -/
def read (base limit : Nat) : List Char → Except ReadError Nat
  | [] => .error .empty
  | ['+'] => .error .invalidDigit
  | '+' :: digits => readDigits base limit 0 digits
  | digits => readDigits base limit 0 digits

end WordMachine.Numeral
