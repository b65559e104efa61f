import TwinEngine.Trap

/-!
Contract: tables of references.

Owns: a table of reference payloads, its growth, and the checked reads and writes on it.

An operation whose range ends beyond the table traps and changes nothing.
-/

namespace TwinEngine

def maxTableSize : Nat := 10000000

/-- A table of payloads of one reference kind. -/
structure Table where
  element : ValueKind
  entries : Array UInt64
  maximum : Option Nat
deriving Repr

namespace Table

def new (element : ValueKind) (initial : Nat) (maximum : Option Nat) (init : UInt64) : Table :=
  ⟨element, Array.replicate initial init, maximum⟩

def size (table : Table) : Nat := table.entries.size

def get (table : Table) (index : Nat) : Except Trap UInt64 :=
  match table.entries[index]? with
  | some payload => .ok payload
  | none => .error .tableOutOfBounds

def getValue (table : Table) (index : Nat) : Except Trap Value :=
  (table.get index).map (.ofPayload table.element)

def set (table : Table) (index : Nat) (payload : UInt64) : Except Trap Table :=
  if index < table.size then
    .ok { table with entries := table.entries.setIfInBounds index payload }
  else .error .tableOutOfBounds

def limit (table : Table) : Nat := min (table.maximum.getD maxTableSize) maxTableSize

def extendBy (payload : UInt64) : Nat → Array UInt64 → Array UInt64
  | 0, entries => entries
  | count + 1, entries => extendBy payload count (entries.push payload)

/-- Grow by a number of entries. The answer is the old size, or nothing when the table would become
too large. -/
def grow (table : Table) (delta : Nat) (payload : UInt64) : Option Nat × Table :=
  let old := table.size
  if old + delta ≤ table.limit then
    (some old, { table with entries := extendBy payload delta table.entries })
  else (none, table)

def inBounds (table : Table) (start length : Nat) : Bool :=
  start + length ≤ table.size

def setAll (payload : UInt64) : Nat → Nat → Array UInt64 → Array UInt64
  | 0, _, entries => entries
  | count + 1, index, entries =>
    setAll payload count (index + 1) (entries.setIfInBounds index payload)

def fill (table : Table) (start : Nat) (payload : UInt64) (length : Nat) : Except Trap Table :=
  if table.inBounds start length then
    .ok { table with entries := setAll payload length start table.entries }
  else .error .tableOutOfBounds

def writeAll : List UInt64 → Nat → Array UInt64 → Array UInt64
  | [], _, entries => entries
  | payload :: rest, index, entries =>
    writeAll rest (index + 1) (entries.setIfInBounds index payload)

def copyFrom (table : Table) (target : Nat) (payloads : Array UInt64) (source length : Nat) :
    Except Trap Table :=
  if source + length ≤ payloads.size && table.inBounds target length then
    let slice := (payloads.extract source (source + length)).toList
    .ok { table with entries := writeAll slice target table.entries }
  else .error .tableOutOfBounds

def copyWithin (table : Table) (target source length : Nat) : Except Trap Table :=
  if table.inBounds source length && table.inBounds target length then
    let slice := (table.entries.extract source (source + length)).toList
    .ok { table with entries := writeAll slice target table.entries }
  else .error .tableOutOfBounds

end Table

end TwinEngine
