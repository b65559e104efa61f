import TwinEngine.Numeric.FloatFormat

/-!
Contract: the shortest decimal that reads back as a given floating-point number.

Owns: the search for the fewest digits inside the interval of reals that round to a number, and the
positional text of a number.

Does not own: reading decimals (`Decimal.Read`).

The interval's ends belong to it exactly when the number's significand is even. On the grid of `n`
digits only the two neighbours of the number can be nearest, so the search tries both for
`n = 1, 2, …`. Of two hits on one grid the nearer wins, and the upper one on a tie.
-/

namespace TwinEngine.Decimal

open TwinEngine.Numeric (FloatFormat)

/-- The number `digits * 10 ^ exponent`. -/
structure Positional where
  digits : Nat
  exponent : Int
deriving DecidableEq, Repr

def powerNumerator (exponent : Int) : Nat := 10 ^ exponent.toNat

def powerDenominator (exponent : Int) : Nat := 10 ^ (-exponent).toNat

/-- A positive number with the interval of reals that round to it. All three are numerators over
`denominator`. -/
structure Interval where
  low : Nat
  value : Nat
  high : Nat
  denominator : Nat
  closed : Bool
deriving DecidableEq, Repr

/-- The interval of a finite, non-zero number. The distance to the number below is halved where the
exponent changes. -/
def Interval.ofBits (format : FloatFormat) (bits : Nat) : Interval :=
  let step := 2 ^ format.spacing bits
  let below :=
    if format.fractionField bits = 0 && format.exponentField bits > 1 then step else 2 * step
  let value := 4 * format.units bits
  { low := value - below
    value := value
    high := value + 2 * step
    denominator := 4 * 2 ^ format.scale
    closed := bits % 2 == 0 }

/-- Whether `candidate * 10 ^ exponent` lies in the interval. -/
def Interval.contains (interval : Interval) (candidate : Nat) (exponent : Int) : Bool :=
  let point := candidate * powerNumerator exponent * interval.denominator
  let low := interval.low * powerDenominator exponent
  let high := interval.high * powerDenominator exponent
  if interval.closed then low ≤ point && point ≤ high else low < point && point < high

/-- The best candidate on the grid of multiples of `10 ^ exponent`, if one is in the interval. -/
def Interval.onGrid? (interval : Interval) (exponent : Int) : Option Nat :=
  let numerator := interval.value * powerDenominator exponent
  let step := interval.denominator * powerNumerator exponent
  let below := numerator / step
  match interval.contains below exponent, interval.contains (below + 1) exponent with
  | true, true => some (if 2 * (numerator % step) < step then below else below + 1)
  | true, false => some below
  | false, true => some (below + 1)
  | false, false => none

/-- Try ever finer grids, starting below `10 ^ magnitude` with one digit. -/
def Interval.search (interval : Interval) (magnitude : Int) : Nat → Nat → Positional
  | 0, digits => ⟨(interval.onGrid? (magnitude - digits)).getD 0, magnitude - digits⟩
  | fuel + 1, digits =>
    match interval.onGrid? (magnitude - digits) with
    | some found => ⟨found, magnitude - digits⟩
    | none => interval.search magnitude fuel (digits + 1)

/-- The least `magnitude` from `start` on, within `fuel` steps, with the value below
`10 ^ magnitude`. -/
def Interval.magnitudeFrom (interval : Interval) : Nat → Int → Int
  | 0, start => start
  | fuel + 1, start =>
    if interval.value * powerDenominator start < interval.denominator * powerNumerator start then
      start
    else interval.magnitudeFrom fuel (start + 1)

/-- The least `magnitude` with the value below `10 ^ magnitude`. The estimate from the binary
logarithm is at most three too small. -/
def Interval.magnitude (interval : Interval) : Int :=
  let binary : Int := (interval.value.log2 : Int) - interval.denominator.log2
  interval.magnitudeFrom 4 ((binary * 30103).fdiv 100000 - 1)

/-- The shortest decimal of a finite, non-zero number. Seventeen digits separate the numbers of the
64-bit format. -/
def shortest (format : FloatFormat) (bits : Nat) : Positional :=
  let interval := Interval.ofBits format bits
  interval.search interval.magnitude 17 1

/-- Drop the zeros at the end of the digits, at most `fuel` of them. -/
def Positional.trim : Nat → Positional → Positional
  | 0, number => number
  | fuel + 1, number =>
    if number.digits % 10 = 0 && number.digits ≠ 0 then
      trim fuel ⟨number.digits / 10, number.exponent + 1⟩
    else number

/-- Positional text, with no exponent and no zeros after the last decimal. -/
def Positional.text (number : Positional) : String :=
  let number := number.trim 20
  let digits := Nat.toDigits 10 number.digits
  if 0 ≤ number.exponent then
    String.ofList (digits ++ List.replicate number.exponent.toNat '0')
  else
    let places := (-number.exponent).toNat
    let padded := List.replicate (places + 1 - digits.length) '0' ++ digits
    let whole := padded.length - places
    String.ofList (padded.take whole ++ '.' :: padded.drop whole)

/-- Text of a floating-point number: `NaN`, `inf`, and otherwise the shortest positional decimal
that reads back, with the sign of zero kept. -/
def floatText (format : FloatFormat) (bits : Nat) : String :=
  if format.isNan bits then "NaN"
  else
    let sign := if format.negative bits then "-" else ""
    let magnitude := format.magnitude bits
    if format.isInfinite bits then sign ++ "inf"
    else if magnitude = 0 then sign ++ "0"
    else sign ++ (shortest format magnitude).text

end TwinEngine.Decimal
