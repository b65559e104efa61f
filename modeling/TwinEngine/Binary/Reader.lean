import TwinEngine.Numeric.Power

/-!
Contract: readers of byte strings.

Owns: the type of readers, fixed and variable width integers, counted vectors and names.

Does not own: what the bytes of a module mean (`Binary.Type`, `Binary.Operator`, `Binary.Section`).

A reader takes a front part of the bytes and gives back the rest, or refuses.
-/

namespace TwinEngine.Binary

/-- Reads a value off the front of a byte string. -/
def Reader (α : Type) : Type := List UInt8 → Option (α × List UInt8)

namespace Reader

instance : Monad Reader where
  pure value := fun bytes => some (value, bytes)
  bind reader next := fun bytes =>
    match reader bytes with
    | none => none
    | some (value, rest) => next value rest

def fail {α : Type} : Reader α := fun _ => none

def require (condition : Bool) : Reader Unit := fun bytes =>
  if condition then some ((), bytes) else none

def ofOption {α : Type} : Option α → Reader α
  | some value => pure value
  | none => fail

def byte : Reader Nat
  | [] => none
  | first :: rest => some (first.toNat, rest)

def peek : Reader Nat
  | [] => none
  | first :: rest => some (first.toNat, first :: rest)

def take (count : Nat) : Reader (List UInt8) := fun bytes =>
  let front := bytes.take count
  if front.length = count then some (front, bytes.drop count) else none

def whole {α : Type} (reader : Reader α) (bytes : List UInt8) : Option α :=
  match reader bytes with
  | some (value, []) => some value
  | _ => none

/-! ## Integers -/

/-- An unsigned number of at most `bits` bits, seven bits to a byte, the low ones first. The unused
bits of the last byte it may take are zero. -/
def unsignedOf (bits : Nat) : Reader Nat
  | [] => none
  | first :: rest =>
    let group := first.toNat
    if group < 128 then
      if 7 ≤ bits ∨ group < 2 ^ bits then some (group, rest) else none
    else if bits ≤ 7 then none
    else
      match unsignedOf (bits - 7) rest with
      | none => none
      | some (high, rest) => some (group - 128 + 128 * high, rest)

/-- A signed number of at most `bits` bits, seven bits to a byte, the low ones first. The unused
bits of the last byte it may take repeat the sign. -/
def signedOf (bits : Nat) : Reader Int
  | [] => none
  | first :: rest =>
    let group := first.toNat
    if group < 128 then
      let value : Int := if group < 64 then group else (group : Int) - 128
      if 7 ≤ bits ∨ (-(2 ^ (bits - 1) : Nat) ≤ value ∧ value < (2 ^ (bits - 1) : Nat)) then
        some (value, rest)
      else none
    else if bits ≤ 7 then none
    else
      match signedOf (bits - 7) rest with
      | none => none
      | some (high, rest) => some ((group : Int) - 128 + 128 * high, rest)

def index : Reader Nat := unsignedOf 32

def signed32 : Reader UInt32 := do
  let value ← signedOf 32
  return (value % 2 ^ 32).toNat.toUInt32

def signed64 : Reader UInt64 := do
  let value ← signedOf 64
  return (value % 2 ^ 64).toNat.toUInt64

def littleEndian : List UInt8 → Nat
  | [] => 0
  | first :: rest => first.toNat + 256 * littleEndian rest

def fixed (count : Nat) : Reader Nat := do
  return littleEndian (← take count)

/-! ## Repetition -/

def repeatInto {α : Type} (reader : Reader α) : Nat → Array α → Reader (Array α)
  | 0, done => fun bytes => some (done, bytes)
  | count + 1, done => fun bytes =>
    match reader bytes with
    | none => none
    | some (value, rest) => repeatInto reader count (done.push value) rest

def times {α : Type} (reader : Reader α) (count : Nat) : Reader (Array α) :=
  repeatInto reader count #[]

def vector {α : Type} (limit : Nat) (reader : Reader α) : Reader (Array α) := do
  let count ← index
  require (count ≤ limit)
  times reader count

/-- Read items until nothing is left, at most one for each unit of fuel. -/
def untilEnd {α : Type} (reader : Reader α) : Nat → Array α → Reader (Array α)
  | _, done, [] => some (done, [])
  | 0, _, _ :: _ => none
  | fuel + 1, done, bytes =>
    match reader bytes with
    | none => none
    | some (value, rest) => untilEnd reader fuel (done.push value) rest

def all {α : Type} (reader : Reader α) : Reader (Array α) := fun bytes =>
  untilEnd reader bytes.length #[] bytes

def nameLimit : Nat := 100000

def name : Reader String := do
  let size ← index
  require (size ≤ nameLimit)
  let bytes ← take size
  ofOption (String.fromUTF8? bytes.toByteArray)

end Reader

end TwinEngine.Binary
