import TwinEngine.Operator

/-!
Contract: the instructions of the slot machine.

Owns: instructions with their operands, their opcodes and their text.

Does not own: their bytes (`Machine.Codec`) or their meaning (`Engine.Compiled`).

The machine works on 32-bit slots. Jump operands are a parameter: byte distances in encoded code,
instruction indices in loaded code, labels in code under construction.
-/

namespace TwinEngine.Machine

inductive TrapCode where
  | unreachable
  | memoryOutOfBounds
deriving DecidableEq, Repr

/-- Number of slots that an instruction moves at once. -/
inductive Width where
  | one
  | two
deriving DecidableEq, Repr

def Width.slots : Width → Nat
  | .one => 1
  | .two => 2

/-- Lists of values that travel in one box. -/
inductive Parcel where
  | params
  | results
deriving DecidableEq, Repr

inductive Callee where
  | unit
  | imported
  | interpreted
deriving DecidableEq, Repr

/-- When a jump is taken, by the slot that it pops. -/
inductive Condition where
  | always
  | zero
  | nonzero
deriving DecidableEq, Repr

/-- An instruction without jump operands. Signature operands index the unit's signature pool. -/
inductive Action where
  | trap (code : TrapCode)
  | checkInterrupt
  | const32 (bits : UInt32)
  | const64 (bits : UInt64)
  | load (width : Width) (slot : UInt16)
  | store (width : Width) (slot : UInt16)
  | pop (width : Width)
  | dup (width : Width)
  | dropKeep (drop keep : UInt16)
  | select (width : Width)
  | leave (slots : UInt16)
  | numeric (operator : Numeric.Operator)
  | memLoad (kind : LoadKind) (offset : UInt32)
  | memStore (kind : StoreKind) (offset : UInt32)
  | memorySize
  | memoryGrow
  | memoryFill
  | memoryCopy
  | memoryInit (segment : UInt32)
  | dataDrop (segment : UInt32)
  | globalGet (width : Width) (index : UInt32)
  | globalSet (width : Width) (index : UInt32)
  | tableGet (table : UInt32)
  | tableSet (table : UInt32)
  | tableSize (table : UInt32)
  | tableGrow (table : UInt32)
  | tableFill (table : UInt32)
  | tableCopy (target source : UInt32)
  | tableInit (segment table : UInt32)
  | elementDrop (segment : UInt32)
  | refFunc (function : UInt32)
  | refIsNull
  | call (callee : Callee) (function : UInt32) (signature : UInt16)
  | callIndirect (typeIndex table : UInt32) (signature : UInt16)
  | box (parcel : Parcel) (signature : UInt16)
  | unbox (parcel : Parcel) (signature : UInt16)
deriving DecidableEq, Repr

/-- An instruction. A switch pops an index into its targets, the last of which is its default. -/
inductive Instruction (τ : Type) where
  | plain (action : Action)
  | jump (condition : Condition) (target : τ)
  | switch (targets : List τ)
deriving DecidableEq, Repr

/-! ## Opcodes -/

inductive Opcode where
  | trap
  | checkInterrupt
  | const (width : Width)
  | load (width : Width)
  | store (width : Width)
  | pop (width : Width)
  | dup (width : Width)
  | dropKeep
  | select (width : Width)
  | jump (condition : Condition)
  | switch
  | leave
  | numeric
  | memLoad
  | memStore
  | memorySize
  | memoryGrow
  | memoryFill
  | memoryCopy
  | memoryInit
  | dataDrop
  | globalGet (width : Width)
  | globalSet (width : Width)
  | tableGet
  | tableSet
  | tableSize
  | tableGrow
  | tableFill
  | tableCopy
  | tableInit
  | elementDrop
  | refFunc
  | refIsNull
  | call (callee : Callee)
  | callIndirect
  | box (parcel : Parcel)
  | unbox (parcel : Parcel)
deriving DecidableEq, Repr

namespace Opcode

def all : List Opcode :=
  [.trap, .checkInterrupt, .const .one, .const .two, .load .one, .load .two, .store .one,
    .store .two, .pop .one, .pop .two, .dup .one, .dup .two, .dropKeep, .select .one, .select .two,
    .jump .always, .jump .zero, .jump .nonzero, .switch, .leave, .numeric, .memLoad, .memStore,
    .memorySize, .memoryGrow, .memoryFill, .memoryCopy, .memoryInit, .dataDrop, .globalGet .one,
    .globalGet .two, .globalSet .one, .globalSet .two, .tableGet, .tableSet, .tableSize, .tableGrow,
    .tableFill, .tableCopy, .tableInit, .elementDrop, .refFunc, .refIsNull, .call .unit,
    .callIndirect, .call .imported, .call .interpreted, .box .params, .unbox .params, .box .results,
    .unbox .results]

def byte : Opcode → UInt8
  | .trap => 0
  | .checkInterrupt => 1
  | .const .one => 10
  | .const .two => 11
  | .load .one => 20
  | .load .two => 21
  | .store .one => 22
  | .store .two => 23
  | .pop .one => 30
  | .pop .two => 31
  | .dup .one => 32
  | .dup .two => 33
  | .dropKeep => 34
  | .select .one => 35
  | .select .two => 36
  | .jump .always => 40
  | .jump .zero => 41
  | .jump .nonzero => 42
  | .switch => 43
  | .leave => 44
  | .numeric => 50
  | .memLoad => 60
  | .memStore => 61
  | .memorySize => 62
  | .memoryGrow => 63
  | .memoryFill => 64
  | .memoryCopy => 65
  | .memoryInit => 66
  | .dataDrop => 67
  | .globalGet .one => 70
  | .globalGet .two => 71
  | .globalSet .one => 72
  | .globalSet .two => 73
  | .tableGet => 80
  | .tableSet => 81
  | .tableSize => 82
  | .tableGrow => 83
  | .tableFill => 84
  | .tableCopy => 85
  | .tableInit => 86
  | .elementDrop => 87
  | .refFunc => 88
  | .refIsNull => 89
  | .call .unit => 100
  | .callIndirect => 101
  | .call .imported => 102
  | .call .interpreted => 103
  | .box .params => 110
  | .unbox .params => 111
  | .box .results => 112
  | .unbox .results => 113

def ofByte? (byte : UInt8) : Option Opcode :=
  all.find? (·.byte == byte)

def widthSuffix : Width → String
  | .one => ""
  | .two => "2"

def name : Opcode → String
  | .trap => "Trap"
  | .checkInterrupt => "CheckInterrupt"
  | .const .one => "Const32"
  | .const .two => "Const64"
  | .load width => "Load" ++ widthSuffix width
  | .store width => "Store" ++ widthSuffix width
  | .pop width => "Pop" ++ widthSuffix width
  | .dup width => "Dup" ++ widthSuffix width
  | .dropKeep => "DropKeep"
  | .select width => "Select" ++ widthSuffix width
  | .jump .always => "Goto"
  | .jump .zero => "IfEq"
  | .jump .nonzero => "IfNe"
  | .switch => "Switch"
  | .leave => "Return"
  | .numeric => "Num"
  | .memLoad => "MemLoad"
  | .memStore => "MemStore"
  | .memorySize => "MemorySize"
  | .memoryGrow => "MemoryGrow"
  | .memoryFill => "MemoryFill"
  | .memoryCopy => "MemoryCopy"
  | .memoryInit => "MemoryInit"
  | .dataDrop => "DataDrop"
  | .globalGet width => "GlobalGet" ++ widthSuffix width
  | .globalSet width => "GlobalSet" ++ widthSuffix width
  | .tableGet => "TableGet"
  | .tableSet => "TableSet"
  | .tableSize => "TableSize"
  | .tableGrow => "TableGrow"
  | .tableFill => "TableFill"
  | .tableCopy => "TableCopy"
  | .tableInit => "TableInit"
  | .elementDrop => "ElemDrop"
  | .refFunc => "RefFunc"
  | .refIsNull => "RefIsNull"
  | .call .unit => "Call"
  | .callIndirect => "CallIndirect"
  | .call .imported => "CallImport"
  | .call .interpreted => "CallInterpreter"
  | .box .params => "BoxParams"
  | .unbox .params => "UnboxParams"
  | .box .results => "BoxResults"
  | .unbox .results => "UnboxResults"

def terminates : Opcode → Bool
  | .trap | .jump .always | .switch | .leave => true
  | _ => false

def branches : Opcode → Bool
  | .jump _ | .switch => true
  | _ => false

end Opcode

def Action.opcode : Action → Opcode
  | .trap _ => .trap
  | .checkInterrupt => .checkInterrupt
  | .const32 _ => .const .one
  | .const64 _ => .const .two
  | .load width _ => .load width
  | .store width _ => .store width
  | .pop width => .pop width
  | .dup width => .dup width
  | .dropKeep .. => .dropKeep
  | .select width => .select width
  | .leave _ => .leave
  | .numeric _ => .numeric
  | .memLoad .. => .memLoad
  | .memStore .. => .memStore
  | .memorySize => .memorySize
  | .memoryGrow => .memoryGrow
  | .memoryFill => .memoryFill
  | .memoryCopy => .memoryCopy
  | .memoryInit _ => .memoryInit
  | .dataDrop _ => .dataDrop
  | .globalGet width _ => .globalGet width
  | .globalSet width _ => .globalSet width
  | .tableGet _ => .tableGet
  | .tableSet _ => .tableSet
  | .tableSize _ => .tableSize
  | .tableGrow _ => .tableGrow
  | .tableFill _ => .tableFill
  | .tableCopy .. => .tableCopy
  | .tableInit .. => .tableInit
  | .elementDrop _ => .elementDrop
  | .refFunc _ => .refFunc
  | .refIsNull => .refIsNull
  | .call callee .. => .call callee
  | .callIndirect .. => .callIndirect
  | .box parcel _ => .box parcel
  | .unbox parcel _ => .unbox parcel

namespace Instruction

variable {τ σ : Type}

def opcode : Instruction τ → Opcode
  | .plain action => action.opcode
  | .jump condition _ => .jump condition
  | .switch _ => .switch

def terminates (instr : Instruction τ) : Bool :=
  instr.opcode.terminates

def targets : Instruction τ → List τ
  | .plain _ => []
  | .jump _ target => [target]
  | .switch targets => targets

def retarget (f : τ → σ) : Instruction τ → Instruction σ
  | .plain action => .plain action
  | .jump condition target => .jump condition (f target)
  | .switch targets => .switch (targets.map f)

/-- The instruction with other jump operands, as many as it has. -/
def withTargets (targets : List τ) : Instruction τ → Instruction τ
  | .plain action => .plain action
  | .jump condition target => .jump condition (targets.headD target)
  | .switch _ => .switch targets

/-- Replace the jump operands, the first first. -/
def mapTargets {m : Type → Type} [Monad m] (f : τ → m σ) : Instruction τ → m (Instruction σ)
  | .plain action => pure (.plain action)
  | .jump condition target => .jump condition <$> f target
  | .switch targets => .switch <$> targets.mapM f

end Instruction

/-! ## Text -/

def TrapCode.name : TrapCode → String
  | .unreachable => "Unreachable"
  | .memoryOutOfBounds => "MemoryOutOfBounds"

/-- A name with one operand, as in `Load(3)`. -/
def operandText (name : String) (operand : Nat) : String :=
  s!"{name}({operand})"

/-- A name with named operands, as in `Call \x7b func: 0, sig: 1 \x7d`. -/
def fieldsText (name : String) (fields : List (String × Nat)) : String :=
  let parts := fields.map fun (field, value) => s!"{field}: {value}"
  name ++ " \x7b " ++ ", ".intercalate parts ++ " \x7d"

def Action.text (action : Action) : String :=
  let name := action.opcode.name
  match action with
  | .trap code => "trap " ++ code.name
  | .numeric operator => "num " ++ operator.name
  | .memLoad kind offset => s!"{kind.name} offset={offset.toNat}"
  | .memStore kind offset => s!"{kind.name} offset={offset.toNat}"
  | .const32 bits => operandText name bits.toNat
  | .const64 bits => operandText name bits.toNat
  | .load _ slot | .store _ slot => operandText name slot.toNat
  | .dropKeep drop keep => fieldsText name [("drop", drop.toNat), ("keep", keep.toNat)]
  | .leave slots => operandText name slots.toNat
  | .memoryInit index | .dataDrop index | .globalGet _ index | .globalSet _ index
  | .tableGet index | .tableSet index | .tableSize index | .tableGrow index | .tableFill index
  | .elementDrop index | .refFunc index => operandText name index.toNat
  | .tableCopy target source => fieldsText name [("dst", target.toNat), ("src", source.toNat)]
  | .tableInit segment table => fieldsText name [("elem", segment.toNat), ("table", table.toNat)]
  | .call _ function signature =>
    fieldsText name [("func", function.toNat), ("sig", signature.toNat)]
  | .callIndirect typeIndex table signature =>
    fieldsText name
      [("type_index", typeIndex.toNat), ("table", table.toNat), ("sig", signature.toNat)]
  | .box _ signature | .unbox _ signature => operandText name signature.toNat
  | .checkInterrupt | .pop _ | .dup _ | .select _ | .memorySize | .memoryGrow | .memoryFill
  | .memoryCopy | .refIsNull => name

def Instruction.text {τ : Type} (target : τ → String) : Instruction τ → String
  | .plain action => action.text
  | .jump condition operand => (Opcode.jump condition).name ++ "(" ++ target operand ++ ")"
  | .switch operands => "switch [" ++ ", ".intercalate (operands.map target) ++ "]"

/-- Text of an encoded instruction, whose jump operands are byte distances. -/
def Instruction.relativeText (instr : Instruction Int32) : String :=
  instr.text fun distance => toString distance.toInt

def Instruction.loadedText (instr : Instruction Nat) : String :=
  instr.text fun index => toString index

end TwinEngine.Machine
