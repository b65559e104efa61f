import TwinEngine.Numeric.Operator
import TwinEngine.Trap

/-!
Contract: what the numeric operators compute.

Owns: the evaluation of every numeric operator on 64-bit payloads, with its traps.

Integers are bit vectors of their width, floating-point numbers are bit patterns. Division by zero,
the overflow of a signed quotient and a truncation out of range are the only traps.
-/

namespace TwinEngine.Numeric

def boolPayload (value : Bool) : UInt64 := if value then 1 else 0

namespace IntWidth

def read (width : IntWidth) (payload : UInt64) : BitVec width.bits :=
  payload.toBitVec.setWidth width.bits

def write (width : IntWidth) (value : BitVec width.bits) : UInt64 :=
  ⟨value.setWidth 64⟩

/-- The integers that a reading of the width's bits gives. -/
def inRange (width : IntWidth) (sign : Sign) (value : Int) : Bool :=
  match sign with
  | .signed => -(2 ^ (width.bits - 1) : Nat) ≤ value && value < (2 ^ (width.bits - 1) : Nat)
  | .unsigned => 0 ≤ value && value < (2 ^ width.bits : Nat)

def least (width : IntWidth) : Sign → Int
  | .signed => -(2 ^ (width.bits - 1) : Nat)
  | .unsigned => 0

def greatest (width : IntWidth) : Sign → Int
  | .signed => (2 ^ (width.bits - 1) : Nat) - 1
  | .unsigned => (2 ^ width.bits : Nat) - 1

end IntWidth

namespace FloatWidth

def read : FloatWidth → UInt64 → Nat
  | .w32, payload => payload.toUInt32.toNat
  | .w64, payload => payload.toNat

def write (_ : FloatWidth) (bits : Nat) : UInt64 := UInt64.ofNat bits

end FloatWidth

def IntComparison.holds {width : Nat} (left right : BitVec width) : IntComparison → Bool
  | .eq => left == right
  | .ne => left != right
  | .lt .signed => left.slt right
  | .lt .unsigned => left.ult right
  | .gt .signed => right.slt left
  | .gt .unsigned => right.ult left
  | .le .signed => left.sle right
  | .le .unsigned => left.ule right
  | .ge .signed => right.sle left
  | .ge .unsigned => right.ule left

def FloatComparison.holds (format : FloatFormat) (left right : Nat) : FloatComparison → Bool
  | .eq => format.eq left right
  | .ne => !format.eq left right
  | .lt => format.lt left right
  | .gt => format.lt right left
  | .le => format.le left right
  | .ge => format.le right left

def BitCount.apply {width : Nat} (value : BitVec width) : BitCount → BitVec width
  | .leadingZeros => value.clz
  | .trailingZeros => value.ctz
  | .ones => value.cpop

/-- Operators on two integers. Shift and rotation counts are taken modulo the width. -/
def IntBinary.apply {width : Nat} (left right : BitVec width) :
    IntBinary → Except Trap (BitVec width)
  | .add => .ok (left + right)
  | .sub => .ok (left - right)
  | .mul => .ok (left * right)
  | .div .signed =>
    if right = 0 then .error .integerDivideByZero
    else if left = BitVec.intMin width && right = -1 then .error .integerOverflow
    else .ok (left.sdiv right)
  | .div .unsigned => if right = 0 then .error .integerDivideByZero else .ok (left / right)
  | .rem .signed => if right = 0 then .error .integerDivideByZero else .ok (left.srem right)
  | .rem .unsigned => if right = 0 then .error .integerDivideByZero else .ok (left % right)
  | .and => .ok (left &&& right)
  | .or => .ok (left ||| right)
  | .xor => .ok (left ^^^ right)
  | .shl => .ok (left <<< (right.toNat % width))
  | .shr .signed => .ok (left.sshiftRight (right.toNat % width))
  | .shr .unsigned => .ok (left >>> (right.toNat % width))
  | .rotl => .ok (left.rotateLeft (right.toNat % width))
  | .rotr => .ok (left.rotateRight (right.toNat % width))

def FloatUnary.apply (format : FloatFormat) (bits : Nat) : FloatUnary → Nat
  | .abs => format.abs bits
  | .neg => format.neg bits
  | .integral mode => format.roundIntegral mode bits
  | .sqrt => format.sqrt bits

def FloatBinary.apply (format : FloatFormat) (left right : Nat) : FloatBinary → Nat
  | .add => format.add left right
  | .sub => format.sub left right
  | .mul => format.mul left right
  | .div => format.div left right
  | .min => format.min left right
  | .max => format.max left right
  | .copysign => format.copysign left right

/-- The integer of a range nearest to a truncated number, zero for a NaN. -/
def saturated (target : IntWidth) (format : FloatFormat) (sign : Sign) (bits : Nat) : Int :=
  if format.isNan bits then 0
  else if format.isInfinite bits then
    if format.negative bits then target.least sign else target.greatest sign
  else max (target.least sign) (min (target.greatest sign) (format.truncated bits))

/-- Truncate a number, or trap when it is a NaN or one of two comparisons finds the integral number
out of range. The cast at the end would saturate. -/
def truncateUnless (target : IntWidth) (format : FloatFormat) (sign : Sign)
    (below above : FloatComparison × Int) (bits : Nat) : Except Trap (BitVec target.bits) :=
  if format.isNan bits then .error .invalidConversion
  else
    let whole := format.roundIntegral .trunc bits
    if below.1.holds format whole (format.ofInt below.2) ||
        above.1.holds format whole (format.ofInt above.2) then .error .integerOverflow
    else .ok (BitVec.ofInt target.bits (saturated target format sign whole))

def truncateSingleToSigned32 : Nat → Except Trap (BitVec 32) :=
  truncateUnless .w32 .single .signed (.lt, -2147483648) (.ge, 2147483648)

def truncateSingleToUnsigned32 : Nat → Except Trap (BitVec 32) :=
  truncateUnless .w32 .single .unsigned (.le, -1) (.ge, 4294967296)

/-- Both ends of the range are numbers of the format, so the upper one is compared with itself. -/
def truncateDoubleToSigned32 : Nat → Except Trap (BitVec 32) :=
  truncateUnless .w32 .double .signed (.lt, -2147483648) (.gt, 2147483647)

def truncateDoubleToUnsigned32 : Nat → Except Trap (BitVec 32) :=
  truncateUnless .w32 .double .unsigned (.le, -1) (.gt, 4294967295)

def truncateDoubleToSigned64 : Nat → Except Trap (BitVec 64) :=
  truncateUnless .w64 .double .signed (.lt, -9223372036854775808) (.ge, 9223372036854775808)

def truncateDoubleToUnsigned64 : Nat → Except Trap (BitVec 64) :=
  truncateUnless .w64 .double .unsigned (.le, -1) (.ge, 18446744073709551616)

/-- Truncate a number to an integer. To 64 bits, a single is made a double first. -/
def truncate (target : IntWidth) (source : FloatWidth) (sign : Sign) (bits : Nat) :
    Except Trap (BitVec target.bits) :=
  match target, source, sign with
  | .w32, .w32, .signed => truncateSingleToSigned32 bits
  | .w32, .w32, .unsigned => truncateSingleToUnsigned32 bits
  | .w32, .w64, .signed => truncateDoubleToSigned32 bits
  | .w32, .w64, .unsigned => truncateDoubleToUnsigned32 bits
  | .w64, .w32, .signed => truncateDoubleToSigned64 (FloatFormat.convert .single .double bits)
  | .w64, .w32, .unsigned => truncateDoubleToUnsigned64 (FloatFormat.convert .single .double bits)
  | .w64, .w64, .signed => truncateDoubleToSigned64 bits
  | .w64, .w64, .unsigned => truncateDoubleToUnsigned64 bits

/-- Read the low `width` bits of a payload as a signed integer, and give it at another width. -/
def signExtend (width : Nat) (target : IntWidth) (payload : UInt64) : UInt64 :=
  target.write ((payload.toBitVec.setWidth width).signExtend target.bits)

def intOf (width : IntWidth) (sign : Sign) (payload : UInt64) : Int :=
  match sign with
  | .signed => (width.read payload).toInt
  | .unsigned => (width.read payload).toNat

namespace Operator

/-- Evaluate an operator. Operators with one operand ignore the second payload. -/
def eval (operator : Operator) (left right : UInt64) : Except Trap UInt64 :=
  match operator with
  | .eqz width => .ok (boolPayload (width.read left == 0))
  | .compareInt width comparison =>
    .ok (boolPayload (comparison.holds (width.read left) (width.read right)))
  | .compareFloat width comparison =>
    .ok (boolPayload (comparison.holds width.format (width.read left) (width.read right)))
  | .count width what => .ok (width.write (what.apply (width.read left)))
  | .binaryInt width operation =>
    width.write <$> operation.apply (width.read left) (width.read right)
  | .unaryFloat width operation =>
    .ok (width.write (operation.apply width.format (width.read left)))
  | .binaryFloat width operation =>
    .ok (width.write (operation.apply width.format (width.read left) (width.read right)))
  | .wrap => .ok left.toUInt32.toUInt64
  | .extend .signed => .ok (signExtend 32 .w64 left)
  | .extend .unsigned => .ok left.toUInt32.toUInt64
  | .truncate target source sign =>
    target.write <$> Numeric.truncate target source sign (source.read left)
  | .convert target source sign =>
    .ok (target.write (target.format.ofInt (intOf source sign left)))
  | .demote => .ok (UInt64.ofNat (FloatFormat.convert .double .single left.toNat))
  | .promote => .ok (UInt64.ofNat (FloatFormat.convert .single .double left.toUInt32.toNat))
  | .bitsOfFloat _ | .floatOfBits _ => .ok left
  | .extend8 width => .ok (signExtend 8 width left)
  | .extend16 width => .ok (signExtend 16 width left)
  | .extend32 => .ok (signExtend 32 .w64 left)
  | .saturate target source sign =>
    .ok (target.write
      (BitVec.ofInt target.bits (saturated target source.format sign (source.read left))))

end Operator

end TwinEngine.Numeric
