import TwinEngine.Error
import TwinEngine.Machine.Codec

/-!
Contract: code units, the encoded code of one function.

Owns:
- the calling conventions and the slots that cross a call;
- code units and their loading, which decodes the bytes and turns byte distances into instruction
  indices.

Does not own: checking a loaded unit (`Machine.Verifier`).
-/

namespace TwinEngine.Machine

/-- How arguments reach the first locals of a unit: one slot each, or all in one box. -/
inductive Convention where
  | slots
  | boxed
deriving DecidableEq, Repr

/-- Parameter slots above which arguments travel in one box. -/
def maxParamSlots : Nat := 253

def Convention.of (type : FunctionType) : Convention :=
  if type.paramSlots > maxParamSlots then .boxed else .slots

def argSlots (type : FunctionType) : Nat :=
  match Convention.of type with
  | .slots => type.paramSlots
  | .boxed => 1

/-- Slots that a call leaves on the caller's stack. Two or more results come back in one box. -/
def returnSlots (type : FunctionType) : Nat :=
  if type.results.length > 1 then 1 else type.resultSlots

/-- The code of one function, encoded, with what is needed to load and call it. -/
structure CodeUnit where
  function : Nat
  bytes : List UInt8
  signature : FunctionType
  localSlots : Nat
  maxStack : Nat
  signatures : Array FunctionType
deriving DecidableEq, Repr

/-- The code of one function, decoded, with jump operands as instruction indices. -/
structure LoadedUnit where
  function : Nat
  code : Array (Instruction Nat)
  signature : FunctionType
  localSlots : Nat
  maxStack : Nat
  signatures : Array FunctionType
deriving DecidableEq, Repr

namespace CodeUnit

def size (unit : CodeUnit) : Nat := unit.bytes.length

def convention (unit : CodeUnit) : Convention := .of unit.signature

end CodeUnit

/-- Code decoded from bytes: the instructions, the position of each, and the position behind the
last. -/
structure DecodedCode where
  code : Array (Instruction Int32)
  offsets : Array Nat
  size : Nat

namespace DecodedCode

def empty : DecodedCode := ⟨#[], #[], 0⟩

def push (decoded : DecodedCode) (instr : Instruction Int32) (length : Nat) : DecodedCode :=
  ⟨decoded.code.push instr, decoded.offsets.push decoded.size, decoded.size + length⟩

/-- Decode bytes to their end. The fault is the position of the first byte that starts no
instruction. Every instruction has at least one byte, so as many steps as there are bytes
suffice. -/
def decodeFrom : Nat → List UInt8 → DecodedCode → Except Nat DecodedCode
  | _, [], decoded => .ok decoded
  | 0, _ :: _, decoded => .error decoded.size
  | fuel + 1, bytes, decoded =>
    match Instruction.decode bytes with
    | none => .error decoded.size
    | some (instr, rest) =>
      decodeFrom fuel rest (decoded.push instr instr.encodedLength)

def decodeAll (bytes : List UInt8) : Except Nat DecodedCode :=
  decodeFrom bytes.length bytes .empty

/-- Halve a range of ascending positions until one is left: the last that is not behind the place,
if there is one. -/
def bisect (offsets : Array Nat) (place base size : Nat) : Nat :=
  if size ≤ 1 then base
  else
    let half := size / 2
    let middle := base + half
    bisect offsets place (if place < offsets.getD middle 0 then base else middle) (size - half)
termination_by size

/-- The index of the instruction that starts at a place. -/
def indexAt (decoded : DecodedCode) (place : Nat) : Option Nat :=
  let index := bisect decoded.offsets place 0 decoded.offsets.size
  if decoded.offsets[index]? = some place then some index else none

/-- The instruction index that a distance from a position leads to. It takes the place of the
distance, so it has to be as narrow. -/
def resolve (decoded : DecodedCode) (start : Nat) (distance : Int32) :
    Except UnitFault Nat :=
  let target : Int := start + distance.toInt
  match if target < 0 then none else decoded.indexAt target.toNat with
  | none => .error (.jumpTarget start target)
  | some index => if index < 2 ^ 31 then .ok index else .error (.targetIndex index)

def resolveAll (decoded : DecodedCode) : Except UnitFault (Array (Instruction Nat)) :=
  (decoded.offsets.zip decoded.code).mapM fun (start, instr) =>
    instr.mapTargets (decoded.resolve start)

end DecodedCode

namespace CodeUnit

def load (unit : CodeUnit) : Except Error LoadedUnit :=
  match DecodedCode.decodeAll unit.bytes with
  | .error position => .error (.verification unit.function (.undecodable position))
  | .ok decoded =>
    match decoded.resolveAll with
    | .error fault => .error (.verification unit.function fault)
    | .ok code =>
      .ok
        { function := unit.function
          code := code
          signature := unit.signature
          localSlots := unit.localSlots
          maxStack := unit.maxStack
          signatures := unit.signatures }

/-- The instructions of a unit with their byte distances, up to the first that does not decode. -/
def instructions (unit : CodeUnit) : List (Instruction Int32) :=
  go unit.bytes.length unit.bytes
where
  go : Nat → List UInt8 → List (Instruction Int32)
    | 0, _ => []
    | fuel + 1, bytes =>
      match Instruction.decode bytes with
      | none => []
      | some (instr, rest) => instr :: go fuel rest

end CodeUnit

end TwinEngine.Machine
