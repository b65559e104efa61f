import TwinEngine.Numeric.FloatFormat

/-!
Contract: arithmetic, comparison and rounding to integers on floating-point bit patterns.

Owns: correctly rounded addition, subtraction, multiplication, division and square root, the four
roundings to an integral value, minimum and maximum, sign operations, conversion between formats
and between numbers and integers.

Does not own: which operator traps (`Operator.eval`).

A NaN operand of an arithmetic operation is passed on, made quiet, the first operand first. An
operation with no meaningful result gives the quiet NaN with its sign bit set. Minimum and maximum
answer every NaN operand with the canonical positive NaN.
-/

namespace TwinEngine.Numeric

inductive IntegralRounding where
  | ceil
  | floor
  | trunc
  | nearest
deriving DecidableEq, Repr

namespace FloatFormat

def invalid (format : FloatFormat) : Nat :=
  format.withSign true format.canonicalNan

def quiet (format : FloatFormat) (bits : Nat) : Nat :=
  bits ||| format.quietBit

/-- The NaN that an arithmetic operation on these operands passes on, if any. -/
def propagated (format : FloatFormat) (left right : Nat) : Option Nat :=
  if format.isNan left then some (format.quiet left)
  else if format.isNan right then some (format.quiet right)
  else none

def abs (format : FloatFormat) (bits : Nat) : Nat :=
  format.magnitude bits

def neg (format : FloatFormat) (bits : Nat) : Nat :=
  format.withSign (!format.negative bits) (format.magnitude bits)

def copysign (format : FloatFormat) (left right : Nat) : Nat :=
  format.withSign (format.negative right) (format.magnitude left)

/-- Round a signed number of units; the zero has the given sign. -/
def roundSigned (format : FloatFormat) (zeroNegative : Bool) (total : Int) : Nat :=
  if total = 0 then format.withSign zeroNegative 0
  else format.withSign (total < 0) (format.roundUnits total.natAbs 1)

def addNumbers (format : FloatFormat) (left right : Nat) : Nat :=
  if format.isInfinite left then
    if format.isInfinite right && format.negative left != format.negative right then format.invalid
    else left
  else if format.isInfinite right then right
  else
    format.roundSigned (format.negative left && format.negative right)
      (format.signedUnits left + format.signedUnits right)

def add (format : FloatFormat) (left right : Nat) : Nat :=
  (format.propagated left right).getD (format.addNumbers left right)

def sub (format : FloatFormat) (left right : Nat) : Nat :=
  (format.propagated left right).getD (format.addNumbers left (format.neg right))

def productSign (format : FloatFormat) (left right : Nat) : Bool :=
  format.negative left != format.negative right

def mulNumbers (format : FloatFormat) (left right : Nat) : Nat :=
  let sign := format.productSign left right
  if format.isInfinite left || format.isInfinite right then
    if format.magnitude left == 0 || format.magnitude right == 0 then format.invalid
    else format.withSign sign format.infinityBits
  else
    format.withSign sign
      (format.roundUnits (format.units left * format.units right) (2 ^ format.scale))

def mul (format : FloatFormat) (left right : Nat) : Nat :=
  (format.propagated left right).getD (format.mulNumbers left right)

def divNumbers (format : FloatFormat) (left right : Nat) : Nat :=
  let sign := format.productSign left right
  if format.isInfinite left then
    if format.isInfinite right then format.invalid
    else format.withSign sign format.infinityBits
  else if format.isInfinite right then format.withSign sign 0
  else if format.magnitude right == 0 then
    if format.magnitude left == 0 then format.invalid
    else format.withSign sign format.infinityBits
  else
    format.withSign sign
      (format.roundUnits (format.units left * 2 ^ format.scale) (format.units right))

def div (format : FloatFormat) (left right : Nat) : Nat :=
  (format.propagated left right).getD (format.divNumbers left right)

/-- The largest root below `2 ^ bits` whose square, with `root` in its higher bits, stays within
`square`. -/
def refineRoot (square : Nat) : Nat → Nat → Nat
  | 0, root => root
  | bits + 1, root =>
    let candidate := root + 2 ^ bits
    refineRoot square bits (if candidate * candidate ≤ square then candidate else root)

def floorRoot (square : Nat) : Nat :=
  refineRoot square (square.log2 / 2 + 1) 0

/-- Square root of a finite positive number. The root of `units * 2 ^ scale` has far more bits than
the format keeps, so one extra bit that says "not exact" decides the rounding. -/
def sqrtPositive (format : FloatFormat) (bits : Nat) : Nat :=
  let square := format.units bits * 2 ^ format.scale
  let root := floorRoot square
  format.roundUnits (2 * root + (if root * root = square then 0 else 1)) 2

def sqrt (format : FloatFormat) (bits : Nat) : Nat :=
  if format.isNan bits then format.quiet bits
  else if format.magnitude bits == 0 then bits
  else if format.negative bits then format.invalid
  else if format.isInfinite bits then bits
  else format.sqrtPositive bits

def integralMagnitude (format : FloatFormat) (mode : IntegralRounding) (bits : Nat) : Nat :=
  let whole := format.units bits / 2 ^ format.scale
  let rest := format.units bits % 2 ^ format.scale
  let up := match mode with
    | .trunc => false
    | .floor => format.negative bits && rest != 0
    | .ceil => !format.negative bits && rest != 0
    | .nearest => 2 * rest > 2 ^ format.scale || (2 * rest == 2 ^ format.scale && whole % 2 == 1)
  if up then whole + 1 else whole

/-- Round to an integral value; the sign is kept, also on zero. -/
def roundIntegral (format : FloatFormat) (mode : IntegralRounding) (bits : Nat) : Nat :=
  if format.isNan bits then format.quiet bits
  else if format.isInfinite bits then bits
  else
    format.withSign (format.negative bits)
      (format.roundUnits (format.integralMagnitude mode bits * 2 ^ format.scale) 1)

/-- Order of the numbers that are not NaN: both zeros have key zero. -/
def orderKey (format : FloatFormat) (bits : Nat) : Int :=
  if format.negative bits then -(format.magnitude bits : Int) else format.magnitude bits

def ordered (format : FloatFormat) (left right : Nat) : Bool :=
  !format.isNan left && !format.isNan right

def eq (format : FloatFormat) (left right : Nat) : Bool :=
  format.ordered left right && format.orderKey left == format.orderKey right

def lt (format : FloatFormat) (left right : Nat) : Bool :=
  format.ordered left right && format.orderKey left < format.orderKey right

def le (format : FloatFormat) (left right : Nat) : Bool :=
  format.ordered left right && format.orderKey left ≤ format.orderKey right

/-- The lesser operand, the negative zero being less than the positive one. -/
def min (format : FloatFormat) (left right : Nat) : Nat :=
  if !format.ordered left right then format.canonicalNan
  else if format.orderKey left == format.orderKey right then left ||| right
  else if format.orderKey left < format.orderKey right then left
  else right

/-- The greater operand, the positive zero being greater than the negative one. -/
def max (format : FloatFormat) (left right : Nat) : Nat :=
  if !format.ordered left right then format.canonicalNan
  else if format.orderKey left == format.orderKey right then left &&& right
  else if format.orderKey left < format.orderKey right then right
  else left

def ofInt (format : FloatFormat) (value : Int) : Nat :=
  format.roundSigned false (value * (2 ^ format.scale : Nat))

/-- Fraction field of a NaN moved to another format, made quiet. -/
def convertPayload (source target : FloatFormat) (fraction : Nat) : Nat :=
  (fraction * 2 ^ target.fractionBits / 2 ^ source.fractionBits) ||| target.quietBit

def convert (source target : FloatFormat) (bits : Nat) : Nat :=
  target.withSign (source.negative bits)
    (if source.isNan bits then
      target.infinityBits + convertPayload source target (source.fractionField bits)
    else if source.isInfinite bits then target.infinityBits
    else target.roundUnits (source.units bits * 2 ^ target.scale) (2 ^ source.scale))

def truncated (format : FloatFormat) (bits : Nat) : Int :=
  let whole := format.units bits / 2 ^ format.scale
  if format.negative bits then -(whole : Int) else whole

end FloatFormat

end TwinEngine.Numeric
