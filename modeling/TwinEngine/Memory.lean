import TwinEngine.Module
import TwinEngine.Numeric.Evaluation

/-!
Contract: linear memory.

Owns: a memory of whole pages, its growth, and the checked reads and writes on it.

Addresses are natural numbers, so that no sum of an address and a length wraps around. An operation
whose range ends beyond the memory traps and changes nothing.
-/

namespace TwinEngine

def pageSize : Nat := 65536

def maxPages : Nat := 32767

/-- A memory. `maximum` is in pages. -/
structure Memory where
  bytes : ByteArray
  maximum : Nat

namespace Memory

def zeros : Nat → ByteArray → ByteArray
  | 0, bytes => bytes
  | count + 1, bytes => zeros count (bytes.push 0)

/-- A memory of its initial size, unless that is too large. -/
def ofType? (type : MemoryType) : Option Memory :=
  if type.initial > maxPages then none
  else
    some
      { bytes := zeros (type.initial * pageSize) (.emptyWithCapacity (type.initial * pageSize))
        maximum := (type.maximum.map (min · maxPages)).getD maxPages }

def size (memory : Memory) : Nat := memory.bytes.size

def pages (memory : Memory) : Nat := memory.size / pageSize

/-- Grow by a number of pages. The answer is the old size in pages, or nothing when the memory would
become too large. -/
def grow : Memory → Nat → Option Nat × Memory
  | ⟨bytes, maximum⟩, delta =>
    let old := bytes.size / pageSize
    if old + delta ≤ maximum then (some old, ⟨zeros (delta * pageSize) bytes, maximum⟩)
    else (none, ⟨bytes, maximum⟩)

@[inline] def inBounds (bytes : ByteArray) (address length : Nat) : Bool :=
  address + length ≤ bytes.size

def read (memory : Memory) (address length : Nat) : Except Trap ByteArray :=
  if inBounds memory.bytes address length then
    .ok (memory.bytes.extract address (address + length))
  else .error .memoryOutOfBounds

@[inline] def write : Memory → Nat → ByteArray → Except Trap Memory
  | ⟨bytes, maximum⟩, address, data =>
    if inBounds bytes address data.size then
      .ok ⟨data.copySlice 0 bytes address data.size, maximum⟩
    else .error .memoryOutOfBounds

def littleEndianAt (bytes : ByteArray) : Nat → Nat → UInt64
  | 0, _ => 0
  | width + 1, address =>
    (bytes.get! address).toUInt64 ||| (littleEndianAt bytes width (address + 1) <<< 8)

/-- Write the low `width` bytes of a number from an address on, lowest byte first. -/
def setLittleEndian (bytes : ByteArray) : Nat → Nat → UInt64 → ByteArray
  | 0, _, _ => bytes
  | width + 1, address, value =>
    setLittleEndian (bytes.set! address value.toUInt8) width (address + 1) (value >>> 8)

/-- Extend a number read for a load to the payload of its result kind. -/
def extend (kind : LoadKind) (raw : UInt64) : UInt64 :=
  match kind with
  | .i32From8 .signed => Numeric.signExtend 8 .w32 raw
  | .i32From16 .signed => Numeric.signExtend 16 .w32 raw
  | .i64From8 .signed => Numeric.signExtend 8 .w64 raw
  | .i64From16 .signed => Numeric.signExtend 16 .w64 raw
  | .i64From32 .signed => Numeric.signExtend 32 .w64 raw
  | _ => raw

def load (memory : Memory) (kind : LoadKind) (address : Nat) : Except Trap UInt64 :=
  if inBounds memory.bytes address kind.width then
    .ok (extend kind (littleEndianAt memory.bytes kind.width address))
  else .error .memoryOutOfBounds

@[inline] def store : Memory → StoreKind → Nat → UInt64 → Except Trap Memory
  | ⟨bytes, maximum⟩, kind, address, payload =>
    if inBounds bytes address kind.width then
      .ok ⟨setLittleEndian bytes kind.width address payload, maximum⟩
    else .error .memoryOutOfBounds

def setAll (value : UInt8) : Nat → Nat → ByteArray → ByteArray
  | 0, _, bytes => bytes
  | count + 1, address, bytes => setAll value count (address + 1) (bytes.set! address value)

@[inline] def fill : Memory → Nat → UInt8 → Nat → Except Trap Memory
  | ⟨bytes, maximum⟩, target, value, length =>
    if inBounds bytes target length then .ok ⟨setAll value length target bytes, maximum⟩
    else .error .memoryOutOfBounds

/-- Copy a range as it was before; the ranges may overlap. -/
@[inline] def copy : Memory → Nat → Nat → Nat → Except Trap Memory
  | ⟨bytes, maximum⟩, target, source, length =>
    if inBounds bytes source length && inBounds bytes target length then
      let data := bytes.extract source (source + length)
      .ok ⟨data.copySlice 0 bytes target length, maximum⟩
    else .error .memoryOutOfBounds

@[inline] def init : Memory → Nat → ByteArray → Nat → Nat → Except Trap Memory
  | ⟨bytes, maximum⟩, target, data, source, length =>
    if inBounds data source length && inBounds bytes target length then
      .ok ⟨data.copySlice source bytes target length, maximum⟩
    else .error .memoryOutOfBounds

/-- Runs of non-zero bytes below an index, in front of runs already found; `run` is the run that
the byte at the index would continue. -/
def runsBelow (bytes : ByteArray) :
    Nat → List UInt8 → List (Nat × List UInt8) → List (Nat × List UInt8)
  | 0, run, found => if run.isEmpty then found else (0, run) :: found
  | index + 1, run, found =>
    let byte := bytes.get! index
    if byte = 0 then
      runsBelow bytes index [] (if run.isEmpty then found else (index + 1, run) :: found)
    else runsBelow bytes index (byte :: run) found

/-- The maximal runs of non-zero bytes, each with its address. -/
def runs (memory : Memory) : List (Nat × List UInt8) :=
  runsBelow memory.bytes memory.size [] []

end Memory

end TwinEngine
