import TwinEngine.Machine.Instruction

/-!
Contract: the bytes of machine instructions.

Owns: little-endian operands, the encoding of an instruction, its length and its decoding.

An instruction is one opcode byte and operands of fixed width; a switch carries the number of its
targets in two bytes in front of them. Decoding gives the instruction and the bytes that follow it.
-/

namespace TwinEngine.Machine

def littleEndian : Nat → Nat → List UInt8
  | 0, _ => []
  | count + 1, value => UInt8.ofNat value :: littleEndian count (value / 256)

def readLittleEndian : Nat → List UInt8 → Option (Nat × List UInt8)
  | 0, rest => some (0, rest)
  | _ + 1, [] => none
  | count + 1, byte :: rest =>
    match readLittleEndian count rest with
    | some (value, rest) => some (byte.toNat + 256 * value, rest)
    | none => none

def bytes16 (value : UInt16) : List UInt8 := littleEndian 2 value.toNat

def bytes32 (value : UInt32) : List UInt8 := littleEndian 4 value.toNat

def bytes64 (value : UInt64) : List UInt8 := littleEndian 8 value.toNat

/-- A reader of operands: what it read, and the bytes after it. -/
abbrev OperandReader (α : Type) := List UInt8 → Option (α × List UInt8)

def read8 : OperandReader UInt8
  | [] => none
  | byte :: rest => some (byte, rest)

def read16 : OperandReader UInt16 := fun bytes =>
  (readLittleEndian 2 bytes).map fun (value, rest) => (UInt16.ofNat value, rest)

def read32 : OperandReader UInt32 := fun bytes =>
  (readLittleEndian 4 bytes).map fun (value, rest) => (UInt32.ofNat value, rest)

def read64 : OperandReader UInt64 := fun bytes =>
  (readLittleEndian 8 bytes).map fun (value, rest) => (UInt64.ofNat value, rest)

def readDistance : OperandReader Int32 := fun bytes =>
  (read32 bytes).map fun (value, rest) => (value.toInt32, rest)

def readDistances : Nat → OperandReader (List Int32)
  | 0, rest => some ([], rest)
  | count + 1, bytes => do
      let (distance, rest) ← readDistance bytes
      let (distances, rest) ← readDistances count rest
      some (distance :: distances, rest)

def readAs {α β : Type} (reader : OperandReader α) (build : α → β) : OperandReader β := fun bytes =>
  (reader bytes).map fun (value, rest) => (build value, rest)

def readTrapCode : OperandReader TrapCode
  | 0 :: rest => some (.unreachable, rest)
  | 1 :: rest => some (.memoryOutOfBounds, rest)
  | _ => none

def TrapCode.byte : TrapCode → UInt8
  | .unreachable => 0
  | .memoryOutOfBounds => 1

/-! ## Encoding -/

def Action.operands : Action → List UInt8
  | .checkInterrupt | .pop _ | .dup _ | .select _ | .memorySize | .memoryGrow | .memoryFill
  | .memoryCopy | .refIsNull => []
  | .trap code => [code.byte]
  | .numeric operator => [operator.code]
  | .load _ slot | .store _ slot => bytes16 slot
  | .leave slots => bytes16 slots
  | .box _ signature | .unbox _ signature => bytes16 signature
  | .const32 bits => bytes32 bits
  | .const64 bits => bytes64 bits
  | .dropKeep drop keep => bytes16 drop ++ bytes16 keep
  | .memoryInit index | .dataDrop index | .globalGet _ index | .globalSet _ index
  | .tableGet index | .tableSet index | .tableSize index | .tableGrow index | .tableFill index
  | .elementDrop index | .refFunc index => bytes32 index
  | .memLoad kind offset => kind.code :: bytes32 offset
  | .memStore kind offset => kind.code :: bytes32 offset
  | .tableCopy target source => bytes32 target ++ bytes32 source
  | .tableInit segment table => bytes32 segment ++ bytes32 table
  | .call _ function signature => bytes32 function ++ bytes16 signature
  | .callIndirect typeIndex table signature =>
    bytes32 typeIndex ++ bytes32 table ++ bytes16 signature

namespace Instruction

def operands : Instruction Int32 → List UInt8
  | .plain action => action.operands
  | .jump _ distance => bytes32 distance.toUInt32
  | .switch distances =>
    bytes16 (UInt16.ofNat distances.length) ++
      distances.flatMap fun distance => bytes32 distance.toUInt32

def encode (instr : Instruction Int32) : List UInt8 :=
  instr.opcode.byte :: instr.operands

end Instruction

def Action.operandLength : Action → Nat
  | .checkInterrupt | .pop _ | .dup _ | .select _ | .memorySize | .memoryGrow | .memoryFill
  | .memoryCopy | .refIsNull => 0
  | .trap _ | .numeric _ => 1
  | .load .. | .store .. | .leave _ | .box .. | .unbox .. => 2
  | .const32 _ | .dropKeep .. | .memoryInit _ | .dataDrop _ | .globalGet .. | .globalSet ..
  | .tableGet _ | .tableSet _ | .tableSize _ | .tableGrow _ | .tableFill _ | .elementDrop _
  | .refFunc _ => 4
  | .memLoad .. | .memStore .. => 5
  | .call .. => 6
  | .const64 _ | .tableCopy .. | .tableInit .. => 8
  | .callIndirect .. => 10

/-- Length of an instruction in bytes, whatever its jump operands are. -/
def Instruction.encodedLength {τ : Type} : Instruction τ → Nat
  | .plain action => 1 + action.operandLength
  | .jump .. => 5
  | .switch targets => 3 + 4 * targets.length

/-! ## Decoding -/

def Action.decodeOperands (opcode : Opcode) (bytes : List UInt8) : Option (Action × List UInt8) :=
  match opcode with
  | .trap => readAs readTrapCode .trap bytes
  | .checkInterrupt => some (.checkInterrupt, bytes)
  | .const .one => readAs read32 .const32 bytes
  | .const .two => readAs read64 .const64 bytes
  | .load width => readAs read16 (.load width) bytes
  | .store width => readAs read16 (.store width) bytes
  | .pop width => some (.pop width, bytes)
  | .dup width => some (.dup width, bytes)
  | .dropKeep => do
      let (drop, rest) ← read16 bytes
      let (keep, rest) ← read16 rest
      some (.dropKeep drop keep, rest)
  | .select width => some (.select width, bytes)
  | .jump _ | .switch => none
  | .leave => readAs read16 .leave bytes
  | .numeric => do
      let (code, rest) ← read8 bytes
      let operator ← Numeric.Operator.ofCode? code
      some (.numeric operator, rest)
  | .memLoad => do
      let (code, rest) ← read8 bytes
      let kind ← LoadKind.ofCode? code
      readAs read32 (.memLoad kind) rest
  | .memStore => do
      let (code, rest) ← read8 bytes
      let kind ← StoreKind.ofCode? code
      readAs read32 (.memStore kind) rest
  | .memorySize => some (.memorySize, bytes)
  | .memoryGrow => some (.memoryGrow, bytes)
  | .memoryFill => some (.memoryFill, bytes)
  | .memoryCopy => some (.memoryCopy, bytes)
  | .memoryInit => readAs read32 .memoryInit bytes
  | .dataDrop => readAs read32 .dataDrop bytes
  | .globalGet width => readAs read32 (.globalGet width) bytes
  | .globalSet width => readAs read32 (.globalSet width) bytes
  | .tableGet => readAs read32 .tableGet bytes
  | .tableSet => readAs read32 .tableSet bytes
  | .tableSize => readAs read32 .tableSize bytes
  | .tableGrow => readAs read32 .tableGrow bytes
  | .tableFill => readAs read32 .tableFill bytes
  | .tableCopy => do
      let (target, rest) ← read32 bytes
      readAs read32 (.tableCopy target) rest
  | .tableInit => do
      let (segment, rest) ← read32 bytes
      readAs read32 (.tableInit segment) rest
  | .elementDrop => readAs read32 .elementDrop bytes
  | .refFunc => readAs read32 .refFunc bytes
  | .refIsNull => some (.refIsNull, bytes)
  | .call callee => do
      let (function, rest) ← read32 bytes
      readAs read16 (.call callee function) rest
  | .callIndirect => do
      let (typeIndex, rest) ← read32 bytes
      let (table, rest) ← read32 rest
      readAs read16 (.callIndirect typeIndex table) rest
  | .box parcel => readAs read16 (.box parcel) bytes
  | .unbox parcel => readAs read16 (.unbox parcel) bytes

namespace Instruction

def decodeOperands (opcode : Opcode) (bytes : List UInt8) :
    Option (Instruction Int32 × List UInt8) :=
  match opcode with
  | .jump condition => readAs readDistance (.jump condition) bytes
  | .switch => do
      let (count, rest) ← read16 bytes
      readAs (readDistances count.toNat) .switch rest
  | opcode => readAs (Action.decodeOperands opcode) .plain bytes

def decode : List UInt8 → Option (Instruction Int32 × List UInt8)
  | [] => none
  | byte :: rest => do
      let opcode ← Opcode.ofByte? byte
      decodeOperands opcode rest

/-- Read instructions from the front for as long as there are any, at most `limit`, and give back
the bytes behind them. -/
def decodeMany : Nat → List UInt8 → List (Instruction Int32) × List UInt8
  | 0, bytes => ([], bytes)
  | limit + 1, bytes =>
    match decode bytes with
    | none => ([], bytes)
    | some (instr, rest) =>
      let (code, undecoded) := decodeMany limit rest
      (instr :: code, undecoded)

end Instruction

end TwinEngine.Machine
