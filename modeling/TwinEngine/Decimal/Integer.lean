import TwinEngine.Numeric.Power

/-!
Contract: decimal text of integers.

Owns: the reading of an optional sign followed by digits, and the causes for which it is refused.

Does not own: decimals with a fraction (`Decimal.Read`).
-/

namespace TwinEngine.Decimal

inductive IntegerFault where
  | empty
  | invalidDigit
  | aboveRange
  | belowRange
deriving DecidableEq, Repr

namespace IntegerFault

def message : IntegerFault → String
  | .empty => "cannot parse integer from empty string"
  | .invalidDigit => "invalid digit found in string"
  | .aboveRange => "number too large to fit in target type"
  | .belowRange => "number too small to fit in target type"

end IntegerFault

structure IntegerRange where
  low : Int
  high : Int
deriving DecidableEq, Repr

def IntegerRange.signed (width : Nat) : IntegerRange :=
  ⟨-(2 ^ (width - 1) : Nat), (2 ^ (width - 1) : Nat) - 1⟩

def IntegerRange.unsigned (width : Nat) : IntegerRange :=
  ⟨0, (2 ^ width : Nat) - 1⟩

def digitValue? (digit : Char) : Option Nat :=
  if '0' ≤ digit && digit ≤ '9' then some (digit.toNat - 48) else none

/-- Read digits from the left, each after the check that it is a digit and before the check that the
number so far is in range. -/
def readDigits (range : IntegerRange) (negative : Bool) (value : Int) :
    List Char → Except IntegerFault Int
  | [] => .ok value
  | digit :: rest =>
    match digitValue? digit with
    | none => .error .invalidDigit
    | some digit =>
      let value := if negative then 10 * value - digit else 10 * value + digit
      if value > range.high then .error .aboveRange
      else if value < range.low then .error .belowRange
      else readDigits range negative value rest

/-- Read an integer of a range: digits, with a sign in front if wanted. A minus sign in front of a
range without negative numbers is no digit, and neither is a sign that stands alone. -/
def readInteger (range : IntegerRange) (text : String) : Except IntegerFault Int :=
  match text.toList with
  | [] => .error .empty
  | ['+'] | ['-'] => .error .invalidDigit
  | '+' :: digits => readDigits range false 0 digits
  | '-' :: digits =>
    if range.low < 0 then readDigits range true 0 digits else .error .invalidDigit
  | digits => readDigits range false 0 digits

/-- Read an integer with no bound but the caller's use of it. -/
def integer? (text : String) : Option Int :=
  (readInteger (.signed 256) text).toOption

def natural? (text : String) : Option Nat :=
  (readInteger (.unsigned 256) text).toOption.map Int.toNat

end TwinEngine.Decimal
