import TwinEngine.Numeric.Power

/-!
Contract: binary floating-point formats and rounding to nearest.

Owns: the fields of a format, the reading of a bit pattern as an exact multiple of the format's
smallest positive number, and the rounding of a ratio of such multiples back to a bit pattern.

Does not own: arithmetic on bit patterns (`FloatArithmetic`) or decimal text (`Decimal`).

Bit patterns are natural numbers. Every finite number of a format is a whole number of *units*, one
unit being the smallest positive number, and `2 ^ scale` units make one. Exact results are therefore
ratios of natural numbers, and rounding happens once, in `roundUnits`.
-/

namespace TwinEngine.Numeric

/-- A binary interchange format: the widths of its exponent and fraction fields. -/
structure FloatFormat where
  exponentBits : Nat
  fractionBits : Nat
deriving DecidableEq, Repr

namespace FloatFormat

def single : FloatFormat := ⟨8, 23⟩

def double : FloatFormat := ⟨11, 52⟩

/-- `2 ^ scale` units make one. -/
def scale (format : FloatFormat) : Nat :=
  2 ^ (format.exponentBits - 1) - 2 + format.fractionBits

def signBit (format : FloatFormat) : Nat :=
  2 ^ (format.exponentBits + format.fractionBits)

/-- Magnitude bits of infinity: the exponent field all ones, the fraction zero. -/
def infinityBits (format : FloatFormat) : Nat :=
  (2 ^ format.exponentBits - 1) * 2 ^ format.fractionBits

/-- The fraction bit that marks a quiet NaN. -/
def quietBit (format : FloatFormat) : Nat :=
  2 ^ (format.fractionBits - 1)

/-- The positive quiet NaN with no other payload. -/
def canonicalNan (format : FloatFormat) : Nat :=
  format.infinityBits + format.quietBit

def magnitude (format : FloatFormat) (bits : Nat) : Nat :=
  bits % format.signBit

def negative (format : FloatFormat) (bits : Nat) : Bool :=
  bits / format.signBit % 2 == 1

def withSign (format : FloatFormat) (negative : Bool) (magnitude : Nat) : Nat :=
  if negative then format.signBit + magnitude else magnitude

def isNan (format : FloatFormat) (bits : Nat) : Bool :=
  format.infinityBits < format.magnitude bits

def isInfinite (format : FloatFormat) (bits : Nat) : Bool :=
  format.magnitude bits == format.infinityBits

def exponentField (format : FloatFormat) (bits : Nat) : Nat :=
  format.magnitude bits / 2 ^ format.fractionBits

def fractionField (format : FloatFormat) (bits : Nat) : Nat :=
  bits % 2 ^ format.fractionBits

/-- Distance between neighbouring numbers with this exponent field is `2 ^ spacing` units. -/
def spacing (format : FloatFormat) (bits : Nat) : Nat :=
  format.exponentField bits - 1

/-- Magnitude of a finite number, in units. -/
def units (format : FloatFormat) (bits : Nat) : Nat :=
  if format.exponentField bits = 0 then format.fractionField bits
  else (2 ^ format.fractionBits + format.fractionField bits) * 2 ^ format.spacing bits

def signedUnits (format : FloatFormat) (bits : Nat) : Int :=
  if format.negative bits then -(format.units bits : Int) else format.units bits

/-- Quotient rounded to nearest, a half going to the even neighbour. -/
def roundQuotient (numerator denominator : Nat) : Nat :=
  let quotient := numerator / denominator
  let twice := 2 * (numerator % denominator)
  if twice > denominator || (twice == denominator && quotient % 2 == 1) then quotient + 1
  else quotient

/-- Magnitude bits of the number nearest to `numerator / denominator` units, ties to even;
infinity when that number lies beyond the largest finite one. -/
def roundUnits (format : FloatFormat) (numerator denominator : Nat) : Nat :=
  let shift := (numerator / denominator).log2 - format.fractionBits
  let significand := roundQuotient numerator (denominator * 2 ^ shift)
  min (shift * 2 ^ format.fractionBits + significand) format.infinityBits

end FloatFormat

end TwinEngine.Numeric
