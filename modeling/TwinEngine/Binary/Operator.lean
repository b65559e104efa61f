import TwinEngine.Operator
import TwinEngine.Binary.Type

/-!
Contract: the operators that a binary module may write.

Owns: the operators with their full types and memory operands, and their reader.

Does not own: typing (`Validation.Body`), or which operators are supported (`Binary.Conversion`).

An operator whose written form says no more than `TwinEngine.Operator` does is `plain`. The
operators that only validation knows are kept apart as extensions; of vector and atomic operators
their stack signature is all that is kept.
-/

namespace TwinEngine.Binary

/-- The memory operand of an access. `align` is the logarithm of the promised alignment. -/
structure MemoryOperand where
  align : Nat
  memory : Nat
  offset : Nat
deriving DecidableEq, Repr

/-- A clause of a block that catches exceptions. A clause without a tag catches all of them. -/
structure CatchClause where
  tag : Option Nat
  withReference : Bool
  label : Nat
deriving DecidableEq, Repr

/-- Operators that a valid module may use and that are not supported. -/
inductive Extension where
  | fixed (params results : List ValType)
  | access (natural : Nat) (exact : Bool) (operand : MemoryOperand) (params results : List ValType)
  | vectorConstant
  | tryTable (note : BlockNote) (clauses : List CatchClause)
  | throw (tag : Nat)
  | throwRef
  | callRef (typeIndex : Nat)
  | tailCallRef (typeIndex : Nat)
  | refAsNonNull
  | branchOnNull (depth : Nat)
  | branchOnNonNull (depth : Nat)
  | structNew (typeIndex : Nat)
  | structNewDefault (typeIndex : Nat)
  | structGet (packed : Bool) (typeIndex field : Nat)
  | structSet (typeIndex field : Nat)
  | arrayNew (typeIndex : Nat)
  | arrayNewDefault (typeIndex : Nat)
  | arrayNewFixed (typeIndex count : Nat)
  | arrayNewData (typeIndex segment : Nat)
  | arrayNewElement (typeIndex segment : Nat)
  | arrayGet (packed : Bool) (typeIndex : Nat)
  | arraySet (typeIndex : Nat)
  | arrayFill (typeIndex : Nat)
  | arrayCopy (target source : Nat)
  | arrayInitData (typeIndex segment : Nat)
  | arrayInitElement (typeIndex segment : Nat)
  | refTest (target : RefType)
  | refCast (target : RefType)
  | branchOnCast (onFailure : Bool) (depth : Nat) (source target : RefType)
  | inspect (kind : BasicHeap) (count : Nat)
  | anyOfExternal
  | externalOfAny
  | refI31
deriving DecidableEq, Repr

inductive Operator where
  | plain (operator : TwinEngine.Operator)
  | enter (form : BlockForm) (note : BlockNote)
  | selectType (type : ValType)
  | refNull (heap : HeapType)
  | load (kind : LoadKind) (operand : MemoryOperand)
  | store (kind : StoreKind) (operand : MemoryOperand)
  | memorySize (memory : Nat)
  | memoryGrow (memory : Nat)
  | memoryFill (memory : Nat)
  | memoryCopy (target source : Nat)
  | memoryInit (segment memory : Nat)
  | extension (operator : Extension)
deriving DecidableEq, Repr

/-! ## Vector and atomic operators -/

inductive VectorForm where
  | fixed (params results : List ValType)
  | access (natural : Nat) (params results : List ValType)
  | laneAccess (natural lanes : Nat) (results : List ValType)
  | lane (lanes : Nat) (params results : List ValType)
  | constant
  | shuffle
deriving DecidableEq, Repr

namespace VectorForm

def unary : VectorForm := .fixed [.v128] [.v128]

def binary : VectorForm := .fixed [.v128, .v128] [.v128]

def ternary : VectorForm := .fixed [.v128, .v128, .v128] [.v128]

def test : VectorForm := .fixed [.v128] [.i32]

def shift : VectorForm := .fixed [.v128, .i32] [.v128]

def splat (type : ValType) : VectorForm := .fixed [type] [.v128]

def load (natural : Nat) : VectorForm := .access natural [.i32] [.v128]

def extract (lanes : Nat) (type : ValType) : VectorForm := .lane lanes [.v128] [type]

def replace (lanes : Nat) (type : ValType) : VectorForm := .lane lanes [.v128, type] [.v128]

def ofCode? (code : Nat) : Option VectorForm :=
  if code = 0x00 then some (load 4)
  else if code ≤ 0x06 then some (load 3)
  else if code ≤ 0x0a then some (load (code - 0x07))
  else if code = 0x0b then some (.access 4 [.i32, .v128] [])
  else if code = 0x0c then some .constant
  else if code = 0x0d then some .shuffle
  else if code = 0x0e then some binary
  else if code ≤ 0x11 then some (splat .i32)
  else if code = 0x12 then some (splat .i64)
  else if code = 0x13 then some (splat .f32)
  else if code = 0x14 then some (splat .f64)
  else if code ≤ 0x16 then some (extract 16 .i32)
  else if code = 0x17 then some (replace 16 .i32)
  else if code ≤ 0x19 then some (extract 8 .i32)
  else if code = 0x1a then some (replace 8 .i32)
  else if code = 0x1b then some (extract 4 .i32)
  else if code = 0x1c then some (replace 4 .i32)
  else if code = 0x1d then some (extract 2 .i64)
  else if code = 0x1e then some (replace 2 .i64)
  else if code = 0x1f then some (extract 4 .f32)
  else if code = 0x20 then some (replace 4 .f32)
  else if code = 0x21 then some (extract 2 .f64)
  else if code = 0x22 then some (replace 2 .f64)
  else if code ≤ 0x4c then some binary
  else if code = 0x4d then some unary
  else if code ≤ 0x51 then some binary
  else if code = 0x52 then some ternary
  else if code = 0x53 then some test
  else if code ≤ 0x57 then some (.laneAccess (code - 0x54) (16 / 2 ^ (code - 0x54)) [.v128])
  else if code ≤ 0x5b then some (.laneAccess (code - 0x58) (16 / 2 ^ (code - 0x58)) [])
  else if code = 0x5c then some (load 2)
  else if code = 0x5d then some (load 3)
  else if [0x9a, 0xa2, 0xa5, 0xa6, 0xaf, 0xb0, 0xb2, 0xb3, 0xb4, 0xbb, 0xc2, 0xc5, 0xc6, 0xcf, 0xd0,
      0xd2, 0xd3, 0xd4, 0xe2, 0xee].contains code then none
  else if [0x63, 0x64, 0x83, 0x84, 0xa3, 0xa4, 0xc3, 0xc4].contains code then some test
  else if [0x6b, 0x6c, 0x6d, 0x8b, 0x8c, 0x8d, 0xab, 0xac, 0xad, 0xcb, 0xcc,
      0xcd].contains code then some shift
  else if [0x5e, 0x5f, 0x60, 0x61, 0x62, 0x67, 0x68, 0x69, 0x6a, 0x74, 0x75, 0x7a, 0x7c, 0x7d, 0x7e,
      0x7f, 0x80, 0x81, 0x87, 0x88, 0x89, 0x8a, 0x94, 0xa0, 0xa1, 0xa7, 0xa8, 0xa9, 0xaa, 0xc0,
      0xc1, 0xc7, 0xc8, 0xc9, 0xca, 0xe0, 0xe1, 0xe3, 0xec, 0xed, 0xef].contains code then
    some unary
  else if code < 0xf8 then some binary
  else if code ≤ 0xff then some unary
  else if code = 0x100 then some binary
  else if code ≤ 0x104 then some unary
  else if code ≤ 0x10c then some ternary
  else if code ≤ 0x112 then some binary
  else if code = 0x113 then some ternary
  else none

end VectorForm

/-- An atomic access: the logarithm of its width, and its signature. -/
structure AtomicForm where
  natural : Nat
  params : List ValType
  results : List ValType
deriving DecidableEq, Repr

namespace AtomicForm

/-- Type and width of the seven accesses of which each group of atomic operators consists. -/
def accessAt? : Nat → Option (ValType × Nat)
  | 0 => some (.i32, 2)
  | 1 => some (.i64, 3)
  | 2 => some (.i32, 0)
  | 3 => some (.i32, 1)
  | 4 => some (.i64, 0)
  | 5 => some (.i64, 1)
  | 6 => some (.i64, 2)
  | _ => none

def ofCode? (code : Nat) : Option AtomicForm :=
  if code = 0x00 then some ⟨2, [.i32, .i32], [.i32]⟩
  else if code = 0x01 then some ⟨2, [.i32, .i32, .i64], [.i32]⟩
  else if code = 0x02 then some ⟨3, [.i32, .i64, .i64], [.i32]⟩
  else if code < 0x10 then none
  else
    (accessAt? ((code - 0x10) % 7)).bind fun (type, natural) =>
      if code < 0x17 then some ⟨natural, [.i32], [type]⟩
      else if code < 0x1e then some ⟨natural, [.i32, type], []⟩
      else if code < 0x48 then some ⟨natural, [.i32, type], [type]⟩
      else if code < 0x4f then some ⟨natural, [.i32, type, type], [type]⟩
      else none

end AtomicForm

/-! ## Readers -/

namespace Reader

/-- A memory operand: alignment, memory and offset. Bit 6 of the alignment announces a memory
index. -/
def memoryOperand : Reader MemoryOperand := do
  let flags ← index
  if flags < 64 then
    return ⟨flags, 0, ← index⟩
  else
    require (flags < 128)
    let memory ← index
    return ⟨flags - 64, memory, ← index⟩

def lane (bound : Nat) : Reader Nat := do
  let value ← byte
  require (value < bound)
  return value

def vectorOperator : Reader Operator := do
  match ← ofOption (VectorForm.ofCode? (← index)) with
  | .fixed params results => return .extension (.fixed params results)
  | .access natural params results =>
    return .extension (.access natural false (← memoryOperand) params results)
  | .laneAccess natural lanes results => do
      let operand ← memoryOperand
      let _ ← lane lanes
      return .extension (.access natural false operand [.i32, .v128] results)
  | .lane lanes params results => do
      let _ ← lane lanes
      return .extension (.fixed params results)
  | .constant => do
      let _ ← take 16
      return .extension .vectorConstant
  | .shuffle => do
      let _ ← times (lane 32) 16
      return .extension (.fixed [.v128, .v128] [.v128])

def atomicOperator : Reader Operator := do
  match ← index with
  | 0x03 => do
      require ((← byte) = 0)
      return .extension (.fixed [] [])
  | code => do
      let form ← ofOption (AtomicForm.ofCode? code)
      return .extension (.access form.natural true (← memoryOperand) form.params form.results)

/-- A number whose two low bits say whether a cast's source and target admit null. -/
def castFlags : Reader (Bool × Bool) := do
  let flags ← byte
  require (flags < 4)
  return (flags % 2 = 1, 2 ≤ flags)

def branchOnCast (onFailure : Bool) : Reader Extension := do
  let (sourceNullable, targetNullable) ← castFlags
  let depth ← index
  let source ← heapType
  let target ← heapType
  return .branchOnCast onFailure depth ⟨sourceNullable, source⟩ ⟨targetNullable, target⟩

def aggregateOperator : Reader Extension := do
  match ← index with
  | 0 => return .structNew (← index)
  | 1 => return .structNewDefault (← index)
  | 2 => return .structGet false (← index) (← index)
  | 3 | 4 => return .structGet true (← index) (← index)
  | 5 => return .structSet (← index) (← index)
  | 6 => return .arrayNew (← index)
  | 7 => return .arrayNewDefault (← index)
  | 8 => return .arrayNewFixed (← index) (← index)
  | 9 => return .arrayNewData (← index) (← index)
  | 10 => return .arrayNewElement (← index) (← index)
  | 11 => return .arrayGet false (← index)
  | 12 | 13 => return .arrayGet true (← index)
  | 14 => return .arraySet (← index)
  | 15 => return .inspect .array 1
  | 16 => return .arrayFill (← index)
  | 17 => return .arrayCopy (← index) (← index)
  | 18 => return .arrayInitData (← index) (← index)
  | 19 => return .arrayInitElement (← index) (← index)
  | 20 => return .refTest ⟨false, ← heapType⟩
  | 21 => return .refTest ⟨true, ← heapType⟩
  | 22 => return .refCast ⟨false, ← heapType⟩
  | 23 => return .refCast ⟨true, ← heapType⟩
  | 24 => branchOnCast false
  | 25 => branchOnCast true
  | 26 => return .anyOfExternal
  | 27 => return .externalOfAny
  | 28 => return .refI31
  | 29 | 30 => return .inspect .i31 1
  | _ => fail

def bulkOperator : Reader Operator := do
  match ← index with
  | 8 => return .memoryInit (← index) (← index)
  | 9 => return .plain (.dataDrop (← index))
  | 10 => return .memoryCopy (← index) (← index)
  | 11 => return .memoryFill (← index)
  | 12 => do
      let segment ← index
      return .plain (.tableInit (← index) segment)
  | 13 => return .plain (.elementDrop (← index))
  | 14 => return .plain (.tableCopy (← index) (← index))
  | 15 => return .plain (.tableGrow (← index))
  | 16 => return .plain (.tableSize (← index))
  | 17 => return .plain (.tableFill (← index))
  | code => do
      require (code < 8)
      return .plain (.numeric (← ofOption (Numeric.Operator.all[128 + code]?)))

def catchClause : Reader CatchClause := do
  match ← byte with
  | 0 => return ⟨some (← index), false, ← index⟩
  | 1 => return ⟨some (← index), true, ← index⟩
  | 2 => return ⟨none, false, ← index⟩
  | 3 => return ⟨none, true, ← index⟩
  | _ => fail

def clauseLimit : Nat := 10000

def tableTargetLimit : Nat := 7654321

/-- Loads of one byte code each, in code order from `0x28` on. -/
def loadsInOrder : List LoadKind :=
  [.i32, .i64, .f32, .f64, .i32From8 .signed, .i32From8 .unsigned, .i32From16 .signed,
    .i32From16 .unsigned, .i64From8 .signed, .i64From8 .unsigned, .i64From16 .signed,
    .i64From16 .unsigned, .i64From32 .signed, .i64From32 .unsigned]

/-- Stores of one byte code each, in code order from `0x36` on. -/
def storesInOrder : List StoreKind :=
  [.i32, .i64, .f32, .f64, .i32To8, .i32To16, .i64To8, .i64To16, .i64To32]

def operatorInRow (code : Nat) : Reader Operator :=
  if code < 0x28 then fail
  else if code < 0x36 then do
    return .load (← ofOption (loadsInOrder[code - 0x28]?)) (← memoryOperand)
  else if code < 0x3f then do
    return .store (← ofOption (storesInOrder[code - 0x36]?)) (← memoryOperand)
  else if code < 0x45 then fail
  else if code < 0xc5 then do
    return .plain (.numeric (← ofOption (Numeric.Operator.all[code - 0x45]?)))
  else fail

def operator : Reader Operator := do
  match ← byte with
  | 0x00 => return .plain .unreachable
  | 0x01 => return .plain .nop
  | 0x02 => return .enter .block (← blockNote)
  | 0x03 => return .enter .loop (← blockNote)
  | 0x04 => return .enter .conditional (← blockNote)
  | 0x05 => return .plain .otherwise
  | 0x08 => return .extension (.throw (← index))
  | 0x0a => return .extension .throwRef
  | 0x0b => return .plain .finish
  | 0x0c => return .plain (.branch (← index))
  | 0x0d => return .plain (.branchIf (← index))
  | 0x0e => do
      let targets ← vector tableTargetLimit index
      return .plain (.branchTable targets.toList (← index))
  | 0x0f => return .plain .leave
  | 0x10 => return .plain (.call (← index))
  | 0x11 => do
      let typeIndex ← index
      return .plain (.callIndirect (← index) typeIndex)
  | 0x12 => return .plain (.tailCall (← index))
  | 0x13 => do
      let typeIndex ← index
      return .plain (.tailCallIndirect (← index) typeIndex)
  | 0x14 => return .extension (.callRef (← index))
  | 0x15 => return .extension (.tailCallRef (← index))
  | 0x1a => return .plain .drop
  | 0x1b => return .plain .select
  | 0x1c => do
      require ((← index) = 1)
      return .selectType (← valType)
  | 0x1f => do
      let note ← blockNote
      return .extension (.tryTable note (← vector clauseLimit catchClause).toList)
  | 0x20 => return .plain (.localGet (← index))
  | 0x21 => return .plain (.localSet (← index))
  | 0x22 => return .plain (.localTee (← index))
  | 0x23 => return .plain (.globalGet (← index))
  | 0x24 => return .plain (.globalSet (← index))
  | 0x25 => return .plain (.tableGet (← index))
  | 0x26 => return .plain (.tableSet (← index))
  | 0x3f => return .memorySize (← index)
  | 0x40 => return .memoryGrow (← index)
  | 0x41 => return .plain (.constant (.i32 (← signed32)))
  | 0x42 => return .plain (.constant (.i64 (← signed64)))
  | 0x43 => return .plain (.constant (.f32 (← fixed 4).toUInt32))
  | 0x44 => return .plain (.constant (.f64 (← fixed 8).toUInt64))
  | 0xd0 => return .refNull (← heapType)
  | 0xd1 => return .plain .refIsNull
  | 0xd2 => return .plain (.refFunc (← index))
  | 0xd3 => return .extension (.inspect .eq 2)
  | 0xd4 => return .extension .refAsNonNull
  | 0xd5 => return .extension (.branchOnNull (← index))
  | 0xd6 => return .extension (.branchOnNonNull (← index))
  | 0xfb => return .extension (← aggregateOperator)
  | 0xfc => bulkOperator
  | 0xfd => vectorOperator
  | 0xfe => atomicOperator
  | code => operatorInRow code

/-- Operators up to the first `finish`, which is the last of them. -/
def expressionFrom : Nat → Array Operator → Reader (Array Operator)
  | 0, _ => fail
  | fuel + 1, done => do
      let next ← operator
      if next = .plain .finish then return done.push next
      else expressionFrom fuel (done.push next)

def expression : Reader (List Operator) := fun bytes =>
  (expressionFrom bytes.length #[] bytes).map fun (operators, rest) => (operators.toList, rest)

end Reader

end TwinEngine.Binary
