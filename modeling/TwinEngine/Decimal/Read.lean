import TwinEngine.Decimal.Integer
import TwinEngine.Decimal.Shortest

/-!
Contract: reading decimal text as a floating-point number.

Owns: the grammar of decimals with a fraction and an exponent, the words for infinity and NaN, and
the rounding of the number that was read to the nearest bit pattern of a format.

Does not own: integers (`Decimal.Integer`) or the writing of decimals (`Decimal.Shortest`).

A number is read exactly as `digits * 10 ^ exponent` and rounded once, a half going to the even
neighbour.
-/

namespace TwinEngine.Decimal

open TwinEngine.Numeric (FloatFormat)

inductive FloatFault where
  | empty
  | invalid
deriving DecidableEq, Repr

def FloatFault.message : FloatFault → String
  | .empty => "cannot parse float from empty string"
  | .invalid => "invalid float literal"

def digitsNumber (digits : List Char) : Nat :=
  digits.foldl (fun number digit => 10 * number + (digit.toNat - 48)) 0

def splitSign : List Char → Bool × List Char
  | '-' :: rest => (true, rest)
  | '+' :: rest => (false, rest)
  | text => (false, text)

/-- Read what follows the digits of a decimal: nothing, or an exponent with its own sign. -/
def readExponent? : List Char → Option Int
  | [] => some 0
  | mark :: rest =>
    let (negative, digits) := splitSign rest
    if (mark == 'e' || mark == 'E') && !digits.isEmpty && digits.all Char.isDigit then
      let exponent : Int := digitsNumber digits
      some (if negative then -exponent else exponent)
    else none

/-- Read a decimal without a sign: digits, a point anywhere among them, and an exponent. A point
needs a digit on one side at least. -/
def readPositional? (text : List Char) : Option Positional :=
  let (whole, rest) := text.span Char.isDigit
  let (fraction, rest) :=
    match rest with
    | '.' :: rest => rest.span Char.isDigit
    | rest => ([], rest)
  if whole.isEmpty && fraction.isEmpty then none
  else (readExponent? rest).map fun exponent =>
    ⟨digitsNumber (whole ++ fraction), exponent - fraction.length⟩

/-- Magnitude bits of the number nearest to a decimal. A decimal with more places in front of its
point than the format's scale lies above every finite number, and one whose first digit stands as
far behind the point lies below half of the smallest, so powers of ten stay small. -/
def nearestBits (format : FloatFormat) (number : Positional) : Nat :=
  let places : Int := (Nat.toDigits 10 number.digits).length + number.exponent
  if number.digits = 0 || places < -(format.scale : Int) then 0
  else if (format.scale : Int) < places then format.infinityBits
  else format.roundUnits (number.digits * powerNumerator number.exponent * 2 ^ format.scale)
    (powerDenominator number.exponent)

/-- Magnitude bits of a number without a sign. The case of letters in words does not matter. -/
def readMagnitude? (format : FloatFormat) (text : List Char) : Option Nat :=
  match (String.ofList text).toLower with
  | "inf" | "infinity" => some format.infinityBits
  | "nan" => some format.canonicalNan
  | _ => (readPositional? text).map (nearestBits format)

def readFloat (format : FloatFormat) (text : String) : Except FloatFault Nat :=
  let (negative, magnitude) := splitSign text.toList
  if text.isEmpty then .error .empty
  else match readMagnitude? format magnitude with
    | some magnitude => .ok (format.withSign negative magnitude)
    | none => .error .invalid

end TwinEngine.Decimal
