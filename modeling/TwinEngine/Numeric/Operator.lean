import TwinEngine.Value.Text
import TwinEngine.Numeric.FloatArithmetic

/-!
Contract: the numeric operators.

Owns:
- the operators, built from a family, a width and a signedness;
- their parameter and result kinds and their names;
- the one-byte code of each, its place in `Operator.all`.

Does not own: what they compute (`Numeric.Evaluation`).
-/

namespace TwinEngine.Numeric

inductive IntWidth where
  | w32
  | w64
deriving DecidableEq, Repr

inductive FloatWidth where
  | w32
  | w64
deriving DecidableEq, Repr

/-- How the bits of an integer are read. -/
inductive Sign where
  | signed
  | unsigned
deriving DecidableEq, Repr

namespace IntWidth

def bits : IntWidth → Nat
  | .w32 => 32
  | .w64 => 64

def kind : IntWidth → ValueKind
  | .w32 => .i32
  | .w64 => .i64

end IntWidth

namespace FloatWidth

def format : FloatWidth → FloatFormat
  | .w32 => .single
  | .w64 => .double

def kind : FloatWidth → ValueKind
  | .w32 => .f32
  | .w64 => .f64

end FloatWidth

def Sign.suffix : Sign → String
  | .signed => "_s"
  | .unsigned => "_u"

inductive IntComparison where
  | eq
  | ne
  | lt (sign : Sign)
  | gt (sign : Sign)
  | le (sign : Sign)
  | ge (sign : Sign)
deriving DecidableEq, Repr

inductive FloatComparison where
  | eq
  | ne
  | lt
  | gt
  | le
  | ge
deriving DecidableEq, Repr

inductive BitCount where
  | leadingZeros
  | trailingZeros
  | ones
deriving DecidableEq, Repr

inductive IntBinary where
  | add
  | sub
  | mul
  | div (sign : Sign)
  | rem (sign : Sign)
  | and
  | or
  | xor
  | shl
  | shr (sign : Sign)
  | rotl
  | rotr
deriving DecidableEq, Repr

inductive FloatUnary where
  | abs
  | neg
  | integral (mode : IntegralRounding)
  | sqrt
deriving DecidableEq, Repr

inductive FloatBinary where
  | add
  | sub
  | mul
  | div
  | min
  | max
  | copysign
deriving DecidableEq, Repr

inductive Operator where
  | eqz (width : IntWidth)
  | compareInt (width : IntWidth) (comparison : IntComparison)
  | compareFloat (width : FloatWidth) (comparison : FloatComparison)
  | count (width : IntWidth) (what : BitCount)
  | binaryInt (width : IntWidth) (operation : IntBinary)
  | unaryFloat (width : FloatWidth) (operation : FloatUnary)
  | binaryFloat (width : FloatWidth) (operation : FloatBinary)
  | wrap
  | extend (sign : Sign)
  | truncate (target : IntWidth) (source : FloatWidth) (sign : Sign)
  | convert (target : FloatWidth) (source : IntWidth) (sign : Sign)
  | demote
  | promote
  | bitsOfFloat (width : FloatWidth)
  | floatOfBits (width : IntWidth)
  | extend8 (width : IntWidth)
  | extend16 (width : IntWidth)
  | extend32
  | saturate (target : IntWidth) (source : FloatWidth) (sign : Sign)
deriving DecidableEq, Repr

/-! ## Names -/

def IntComparison.name : IntComparison → String
  | .eq => "eq"
  | .ne => "ne"
  | .lt sign => "lt" ++ sign.suffix
  | .gt sign => "gt" ++ sign.suffix
  | .le sign => "le" ++ sign.suffix
  | .ge sign => "ge" ++ sign.suffix

def FloatComparison.name : FloatComparison → String
  | .eq => "eq"
  | .ne => "ne"
  | .lt => "lt"
  | .gt => "gt"
  | .le => "le"
  | .ge => "ge"

def BitCount.name : BitCount → String
  | .leadingZeros => "clz"
  | .trailingZeros => "ctz"
  | .ones => "popcnt"

def IntBinary.name : IntBinary → String
  | .add => "add"
  | .sub => "sub"
  | .mul => "mul"
  | .div sign => "div" ++ sign.suffix
  | .rem sign => "rem" ++ sign.suffix
  | .and => "and"
  | .or => "or"
  | .xor => "xor"
  | .shl => "shl"
  | .shr sign => "shr" ++ sign.suffix
  | .rotl => "rotl"
  | .rotr => "rotr"

def FloatUnary.name : FloatUnary → String
  | .abs => "abs"
  | .neg => "neg"
  | .integral .ceil => "ceil"
  | .integral .floor => "floor"
  | .integral .trunc => "trunc"
  | .integral .nearest => "nearest"
  | .sqrt => "sqrt"

def FloatBinary.name : FloatBinary → String
  | .add => "add"
  | .sub => "sub"
  | .mul => "mul"
  | .div => "div"
  | .min => "min"
  | .max => "max"
  | .copysign => "copysign"

namespace Operator

def bitsWidth : FloatWidth → IntWidth
  | .w32 => .w32
  | .w64 => .w64

def numberWidth : IntWidth → FloatWidth
  | .w32 => .w32
  | .w64 => .w64

def params : Operator → List ValueKind
  | .eqz width | .count width _ | .extend8 width | .extend16 width => [width.kind]
  | .compareInt width _ | .binaryInt width _ => [width.kind, width.kind]
  | .compareFloat width _ | .binaryFloat width _ => [width.kind, width.kind]
  | .unaryFloat width _ => [width.kind]
  | .wrap | .extend32 => [.i64]
  | .extend _ => [.i32]
  | .truncate _ source _ | .saturate _ source _ => [source.kind]
  | .convert _ source _ => [source.kind]
  | .demote => [.f64]
  | .promote => [.f32]
  | .bitsOfFloat width => [width.kind]
  | .floatOfBits width => [width.kind]

def result : Operator → ValueKind
  | .eqz _ | .compareInt .. | .compareFloat .. | .wrap => .i32
  | .count width _ | .binaryInt width _ | .extend8 width | .extend16 width => width.kind
  | .unaryFloat width _ | .binaryFloat width _ => width.kind
  | .extend _ | .extend32 => .i64
  | .truncate target _ _ | .saturate target _ _ => target.kind
  | .convert target _ _ => target.kind
  | .demote => .f32
  | .promote => .f64
  | .bitsOfFloat width => (bitsWidth width).kind
  | .floatOfBits width => (numberWidth width).kind

def qualified (kind : ValueKind) (name : String) : String :=
  kind.name ++ "." ++ name

def conversion (target : ValueKind) (verb : String) (source : ValueKind) : String :=
  target.name ++ "." ++ verb ++ "_" ++ source.name

def name : Operator → String
  | .eqz width => qualified width.kind "eqz"
  | .compareInt width comparison => qualified width.kind comparison.name
  | .compareFloat width comparison => qualified width.kind comparison.name
  | .count width what => qualified width.kind what.name
  | .binaryInt width operation => qualified width.kind operation.name
  | .unaryFloat width operation => qualified width.kind operation.name
  | .binaryFloat width operation => qualified width.kind operation.name
  | .wrap => conversion .i32 "wrap" .i64
  | .extend sign => conversion .i64 "extend" .i32 ++ sign.suffix
  | .truncate target source sign => conversion target.kind "trunc" source.kind ++ sign.suffix
  | .convert target source sign => conversion target.kind "convert" source.kind ++ sign.suffix
  | .demote => conversion .f32 "demote" .f64
  | .promote => conversion .f64 "promote" .f32
  | .bitsOfFloat width => conversion (bitsWidth width).kind "reinterpret" width.kind
  | .floatOfBits width => conversion (numberWidth width).kind "reinterpret" width.kind
  | .extend8 width => qualified width.kind "extend8_s"
  | .extend16 width => qualified width.kind "extend16_s"
  | .extend32 => qualified .i64 "extend32_s"
  | .saturate target source sign => conversion target.kind "trunc_sat" source.kind ++ sign.suffix

/-! ## Codes -/

def intComparisons (width : IntWidth) : List Operator :=
  .eqz width ::
    [.eq, .ne, .lt .signed, .lt .unsigned, .gt .signed, .gt .unsigned, .le .signed, .le .unsigned,
      .ge .signed, .ge .unsigned].map (.compareInt width)

def floatComparisons (width : FloatWidth) : List Operator :=
  [.eq, .ne, .lt, .gt, .le, .ge].map (.compareFloat width)

def intArithmetic (width : IntWidth) : List Operator :=
  [.leadingZeros, .trailingZeros, .ones].map (.count width) ++
    [.add, .sub, .mul, .div .signed, .div .unsigned, .rem .signed, .rem .unsigned, .and, .or, .xor,
      .shl, .shr .signed, .shr .unsigned, .rotl, .rotr].map (.binaryInt width)

def floatArithmetic (width : FloatWidth) : List Operator :=
  [.abs, .neg, .integral .ceil, .integral .floor, .integral .trunc, .integral .nearest,
      .sqrt].map (.unaryFloat width) ++
    [.add, .sub, .mul, .div, .min, .max, .copysign].map (.binaryFloat width)

def fourTruncations (build : FloatWidth → Sign → Operator) : List Operator :=
  [build .w32 .signed, build .w32 .unsigned, build .w64 .signed, build .w64 .unsigned]

def fourConversions (target : FloatWidth) : List Operator :=
  [.convert target .w32 .signed, .convert target .w32 .unsigned, .convert target .w64 .signed,
    .convert target .w64 .unsigned]

/-- Every numeric operator. The code of an operator is its place here. -/
def all : List Operator :=
  intComparisons .w32 ++ intComparisons .w64 ++ floatComparisons .w32 ++ floatComparisons .w64 ++
    intArithmetic .w32 ++ intArithmetic .w64 ++ floatArithmetic .w32 ++ floatArithmetic .w64 ++
    [.wrap] ++ fourTruncations (.truncate .w32) ++
    [.extend .signed, .extend .unsigned] ++ fourTruncations (.truncate .w64) ++
    fourConversions .w32 ++ [.demote] ++ fourConversions .w64 ++ [.promote] ++
    [.bitsOfFloat .w32, .bitsOfFloat .w64, .floatOfBits .w32, .floatOfBits .w64] ++
    [.extend8 .w32, .extend16 .w32, .extend8 .w64, .extend16 .w64, .extend32] ++
    fourTruncations (.saturate .w32) ++ fourTruncations (.saturate .w64)

def code (operator : Operator) : UInt8 :=
  UInt8.ofNat (all.idxOf operator)

def ofCode? (code : UInt8) : Option Operator :=
  all[code.toNat]?

def ofName? (name : String) : Option Operator :=
  all.find? (·.name == name)

end Operator

end TwinEngine.Numeric
