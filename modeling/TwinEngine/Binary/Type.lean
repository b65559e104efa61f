import TwinEngine.Binary.Reader

/-!
Contract: the types that a binary module may write.

Owns: heap, reference, value and storage types, type definitions, and their readers.

Does not own: whether a type index exists (`Validation.TypeSpace`), or which of the types are
supported (`Binary.Conversion`).
-/

namespace TwinEngine.Binary

/-- Heap types that need no definition. -/
inductive BasicHeap where
  | func
  | noFunc
  | external
  | noExternal
  | any
  | noAny
  | eq
  | struct
  | array
  | i31
  | exn
  | noExn
  | cont
  | noCont
deriving DecidableEq, Repr

/-- What a reference points to. What is `shared` may be used by several threads. -/
inductive HeapType where
  | basic (kind : BasicHeap)
  | shared (kind : BasicHeap)
  | defined (index : Nat)
deriving DecidableEq, Repr

structure RefType where
  nullable : Bool
  heap : HeapType
deriving DecidableEq, Repr

inductive ValType where
  | i32
  | i64
  | f32
  | f64
  | v128
  | ref (type : RefType)
deriving DecidableEq, Repr

inductive StorageType where
  | i8
  | i16
  | value (type : ValType)
deriving DecidableEq, Repr

structure FieldType where
  storage : StorageType
  isMutable : Bool
deriving DecidableEq, Repr

structure Signature where
  params : List ValType
  results : List ValType
deriving DecidableEq, Repr

inductive CompositeType where
  | func (signature : Signature)
  | array (cell : FieldType)
  | struct (fields : List FieldType)
deriving DecidableEq, Repr

structure SubType where
  isFinal : Bool
  supertype : Option Nat
  composite : CompositeType
deriving DecidableEq, Repr

inductive BlockNote where
  | empty
  | value (type : ValType)
  | function (typeIndex : Nat)
deriving DecidableEq, Repr

structure Limits where
  initial : Nat
  maximum : Option Nat
deriving DecidableEq, Repr

structure TableNote where
  element : RefType
  limits : Limits
deriving DecidableEq, Repr

structure MemoryNote where
  limits : Limits
  shared : Bool
deriving DecidableEq, Repr

structure GlobalNote where
  type : ValType
  isMutable : Bool
deriving DecidableEq, Repr

namespace RefType

def nullableOf (kind : BasicHeap) : RefType := ⟨true, .basic kind⟩

end RefType

/-! ## Readers -/

namespace BasicHeap

def ofByte? : Nat → Option BasicHeap
  | 0x70 => some .func
  | 0x73 => some .noFunc
  | 0x6f => some .external
  | 0x72 => some .noExternal
  | 0x6e => some .any
  | 0x71 => some .noAny
  | 0x6d => some .eq
  | 0x6b => some .struct
  | 0x6a => some .array
  | 0x6c => some .i31
  | 0x69 => some .exn
  | 0x74 => some .noExn
  | 0x68 => some .cont
  | 0x75 => some .noCont
  | _ => none

end BasicHeap

namespace Reader

/-- A type index in the form that leaves room for basic types. -/
def typeIndex : Reader Nat := do
  let value ← signedOf 33
  require (0 ≤ value)
  return value.toNat

/-- A basic heap type, marked as shared or not, or a definition by its index. -/
def heapType : Reader HeapType := do
  let first ← peek
  match BasicHeap.ofByte? first with
  | some kind =>
    let _ ← byte
    return .basic kind
  | none =>
    if first = 0x65 then
      let _ ← byte
      return .shared (← ofOption (BasicHeap.ofByte? (← byte)))
    else return .defined (← typeIndex)

/-- A heap type after the byte that says whether null is admitted. Without such a byte it is. -/
def refType : Reader RefType := do
  match ← peek with
  | 0x63 =>
    let _ ← byte
    return ⟨true, ← heapType⟩
  | 0x64 =>
    let _ ← byte
    return ⟨false, ← heapType⟩
  | _ => return ⟨true, ← heapType⟩

/-- The value type that is no reference and is written as a byte. -/
def scalarOfByte? : Nat → Option ValType
  | 0x7f => some .i32
  | 0x7e => some .i64
  | 0x7d => some .f32
  | 0x7c => some .f64
  | 0x7b => some .v128
  | _ => none

def valType : Reader ValType := do
  match scalarOfByte? (← peek) with
  | some type =>
    let _ ← byte
    return type
  | none => return .ref (← refType)

/-- A bit written as a whole byte. -/
def flag : Reader Bool := do
  match ← byte with
  | 0 => return false
  | 1 => return true
  | _ => fail

def storageType : Reader StorageType := do
  match ← peek with
  | 0x78 =>
    let _ ← byte
    return .i8
  | 0x77 =>
    let _ ← byte
    return .i16
  | _ => return .value (← valType)

def fieldType : Reader FieldType := do
  let storage ← storageType
  return ⟨storage, ← flag⟩

def signatureLimit : Nat := 1000

def fieldLimit : Nat := 10000

def typeLimit : Nat := 1000000

def signature : Reader Signature := do
  let params ← vector signatureLimit valType
  let results ← vector signatureLimit valType
  return ⟨params.toList, results.toList⟩

def compositeFrom : Nat → Reader CompositeType
  | 0x60 => do return .func (← signature)
  | 0x5e => do return .array (← fieldType)
  | 0x5f => do return .struct (← vector fieldLimit fieldType).toList
  | _ => fail

def subTypeFrom (first : Nat) : Reader SubType :=
  if first = 0x50 ∨ first = 0x4f then do
    let supertypes ← vector 1 index
    let composite ← compositeFrom (← byte)
    return ⟨first = 0x4f, supertypes[0]?, composite⟩
  else do
    return ⟨true, none, ← compositeFrom first⟩

def typeGroup : Reader (List SubType) := do
  match ← byte with
  | 0x4e => return (← vector typeLimit (do subTypeFrom (← byte))).toList
  | first => return [← subTypeFrom first]

def blockNote : Reader BlockNote := do
  let first ← peek
  if first = 0x40 then
    let _ ← byte
    return .empty
  else if 0x40 < first ∧ first < 0x80 then return .value (← valType)
  else return .function (← typeIndex)

def limitsFrom (bounded : Bool) : Reader Limits := do
  let initial ← index
  if bounded then return ⟨initial, some (← index)⟩ else return ⟨initial, none⟩

def tableNote : Reader TableNote := do
  let element ← refType
  match ← byte with
  | 0 => return ⟨element, ← limitsFrom false⟩
  | 1 => return ⟨element, ← limitsFrom true⟩
  | _ => fail

def memoryNote : Reader MemoryNote := do
  match ← byte with
  | 0 => return ⟨← limitsFrom false, false⟩
  | 1 => return ⟨← limitsFrom true, false⟩
  | 3 => return ⟨← limitsFrom true, true⟩
  | _ => fail

def globalNote : Reader GlobalNote := do
  let type ← valType
  return ⟨type, ← flag⟩

end Reader

end TwinEngine.Binary
