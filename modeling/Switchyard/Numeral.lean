namespace Switchyard.Numeral

/-- Values stay below two to the sixty-fourth. -/
def bound : Nat := 18446744073709551616

/-- The sum of two machine words, unless it is too large for one. -/
def sum? (a b : Nat) : Option Nat := if a + b < bound then some (a + b) else none

/-- A word fails for one of three causes. -/
inductive Fault where
  | empty
  | invalidDigit
  | tooLarge
deriving DecidableEq, Repr

def Fault.message : Fault → String
  | .empty => "cannot parse integer from empty string"
  | .invalidDigit => "invalid digit found in string"
  | .tooLarge => "number too large to fit in target type"

/-- Only the ten ASCII digits have a value. -/
def digit? (c : Char) : Option Nat :=
  if c.isDigit then some (c.toNat - '0'.toNat) else none

/-- Each digit is judged before the value it leads to. -/
def readDigits (value : Nat) : List Char → Except Fault Nat
  | [] => .ok value
  | c :: rest =>
      match digit? c with
      | none => .error .invalidDigit
      | some d =>
          if 10 * value + d < bound then readDigits (10 * value + d) rest
          else .error .tooLarge

/-- A lone sign has no digit, so it counts as an invalid one. -/
def readChars : List Char → Except Fault Nat
  | [] => .error .empty
  | ['+'] => .error .invalidDigit
  | '+' :: digits => readDigits 0 digits
  | digits => readDigits 0 digits

/-- A word is an optional plus sign and one or more ASCII digits, and its value fits one 64-bit
machine word. Digits are taken from the left, so the first fault in reading order wins. -/
def read (word : String) : Except Fault Nat := readChars word.toList

end Switchyard.Numeral
