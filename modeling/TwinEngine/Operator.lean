import TwinEngine.Numeric.Operator

/-!
Contract: the operators of a function body.

Owns: memory access kinds, constants, block types and the operators themselves, with the little
that can be read off an operator alone.

Does not own: operator text (`Operator.Text`), block structure (`Body`), or stack effects
(`Analysis`).
-/

namespace TwinEngine

open Numeric (Sign)

inductive LoadKind where
  | i32
  | i64
  | f32
  | f64
  | i32From8 (sign : Sign)
  | i32From16 (sign : Sign)
  | i64From8 (sign : Sign)
  | i64From16 (sign : Sign)
  | i64From32 (sign : Sign)
deriving DecidableEq, Repr

namespace LoadKind

/-- Every load kind. The code of a load kind is its place here. -/
def all : List LoadKind :=
  [.i32, .i64, .f32, .f64, .i32From8 .signed, .i32From8 .unsigned, .i32From16 .signed,
    .i32From16 .unsigned, .i64From8 .signed, .i64From8 .unsigned, .i64From16 .signed,
    .i64From16 .unsigned, .i64From32 .signed, .i64From32 .unsigned]

def result : LoadKind → ValueKind
  | .i32 | .i32From8 _ | .i32From16 _ => .i32
  | .i64 | .i64From8 _ | .i64From16 _ | .i64From32 _ => .i64
  | .f32 => .f32
  | .f64 => .f64

def width : LoadKind → Nat
  | .i32From8 _ | .i64From8 _ => 1
  | .i32From16 _ | .i64From16 _ => 2
  | .i32 | .f32 | .i64From32 _ => 4
  | .i64 | .f64 => 8

def signed : LoadKind → Bool
  | .i32From8 sign | .i32From16 sign | .i64From8 sign | .i64From16 sign | .i64From32 sign =>
    sign == .signed
  | _ => false

def name : LoadKind → String
  | .i32 => "i32.load"
  | .i64 => "i64.load"
  | .f32 => "f32.load"
  | .f64 => "f64.load"
  | .i32From8 sign => "i32.load8" ++ sign.suffix
  | .i32From16 sign => "i32.load16" ++ sign.suffix
  | .i64From8 sign => "i64.load8" ++ sign.suffix
  | .i64From16 sign => "i64.load16" ++ sign.suffix
  | .i64From32 sign => "i64.load32" ++ sign.suffix

def code (kind : LoadKind) : UInt8 := UInt8.ofNat (all.idxOf kind)

def ofCode? (code : UInt8) : Option LoadKind := all[code.toNat]?

def ofName? (name : String) : Option LoadKind := all.find? (·.name == name)

end LoadKind

inductive StoreKind where
  | i32
  | i64
  | f32
  | f64
  | i32To8
  | i32To16
  | i64To8
  | i64To16
  | i64To32
deriving DecidableEq, Repr

namespace StoreKind

/-- Every store kind. The code of a store kind is its place here. -/
def all : List StoreKind :=
  [.i32, .i64, .f32, .f64, .i32To8, .i32To16, .i64To8, .i64To16, .i64To32]

def operand : StoreKind → ValueKind
  | .i32 | .i32To8 | .i32To16 => .i32
  | .i64 | .i64To8 | .i64To16 | .i64To32 => .i64
  | .f32 => .f32
  | .f64 => .f64

def width : StoreKind → Nat
  | .i32To8 | .i64To8 => 1
  | .i32To16 | .i64To16 => 2
  | .i32 | .f32 | .i64To32 => 4
  | .i64 | .f64 => 8

def name : StoreKind → String
  | .i32 => "i32.store"
  | .i64 => "i64.store"
  | .f32 => "f32.store"
  | .f64 => "f64.store"
  | .i32To8 => "i32.store8"
  | .i32To16 => "i32.store16"
  | .i64To8 => "i64.store8"
  | .i64To16 => "i64.store16"
  | .i64To32 => "i64.store32"

def code (kind : StoreKind) : UInt8 := UInt8.ofNat (all.idxOf kind)

def ofCode? (code : UInt8) : Option StoreKind := all[code.toNat]?

def ofName? (name : String) : Option StoreKind := all.find? (·.name == name)

end StoreKind

inductive Constant where
  | i32 (bits : UInt32)
  | i64 (bits : UInt64)
  | f32 (bits : UInt32)
  | f64 (bits : UInt64)
deriving DecidableEq, Repr

namespace Constant

def value : Constant → Value
  | .i32 bits => .i32 bits
  | .i64 bits => .i64 bits
  | .f32 bits => .f32 bits
  | .f64 bits => .f64 bits

def kind (constant : Constant) : ValueKind := constant.value.kind

end Constant

inductive BlockType where
  | empty
  | value (kind : ValueKind)
  | function (typeIndex : Nat)
deriving DecidableEq, Repr

inductive BlockForm where
  | block
  | loop
  | conditional
deriving DecidableEq, Repr

/-- An operator of a function body. `enter` opens a block, `otherwise` starts the second arm of a
conditional, and `finish` closes the innermost block or the body. Branch depths count enclosing
blocks outwards. -/
inductive Operator where
  | unreachable
  | nop
  | enter (form : BlockForm) (type : BlockType)
  | otherwise
  | finish
  | branch (depth : Nat)
  | branchIf (depth : Nat)
  | branchTable (targets : List Nat) (fallback : Nat)
  | leave
  | call (function : Nat)
  | callIndirect (table typeIndex : Nat)
  | tailCall (function : Nat)
  | tailCallIndirect (table typeIndex : Nat)
  | drop
  | select
  | selectKind (kind : ValueKind)
  | localGet (index : Nat)
  | localSet (index : Nat)
  | localTee (index : Nat)
  | globalGet (index : Nat)
  | globalSet (index : Nat)
  | tableGet (table : Nat)
  | tableSet (table : Nat)
  | tableSize (table : Nat)
  | tableGrow (table : Nat)
  | tableFill (table : Nat)
  | tableCopy (target source : Nat)
  | tableInit (table segment : Nat)
  | elementDrop (segment : Nat)
  | load (kind : LoadKind) (offset : Nat)
  | store (kind : StoreKind) (offset : Nat)
  | memorySize
  | memoryGrow
  | memoryFill
  | memoryCopy
  | memoryInit (segment : Nat)
  | dataDrop (segment : Nat)
  | constant (value : Constant)
  | refNull (kind : ValueKind)
  | refIsNull
  | refFunc (function : Nat)
  | numeric (operator : Numeric.Operator)
deriving DecidableEq, Repr

namespace Operator

def opensBlock : Operator → Bool
  | .enter .. => true
  | _ => false

end Operator

end TwinEngine
