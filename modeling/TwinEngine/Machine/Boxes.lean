/-!
Contract: boxes, which hold slots while a handle to them travels.

Owns: the slab of boxes and its free list.

A handle is given out by `put` and is good for one `take`. Handles that were taken are given out
again, the last one first.
-/

namespace TwinEngine.Machine

/-- A slab of boxes. `free` holds the handles of the empty cells. -/
structure Boxes where
  cells : Array (Option (List UInt32)) := #[]
  free : List Nat := []
deriving DecidableEq, Repr, Inhabited

namespace Boxes

def empty : Boxes := {}

def put (boxes : Boxes) (slots : List UInt32) : UInt32 × Boxes :=
  match boxes.free with
  | handle :: rest =>
    (UInt32.ofNat handle, ⟨boxes.cells.setIfInBounds handle (some slots), rest⟩)
  | [] => (UInt32.ofNat boxes.cells.size, ⟨boxes.cells.push (some slots), []⟩)

def take (boxes : Boxes) (handle : UInt32) : Option (List UInt32 × Boxes) :=
  match boxes.cells[handle.toNat]? with
  | some (some slots) =>
    some (slots, ⟨boxes.cells.setIfInBounds handle.toNat none, handle.toNat :: boxes.free⟩)
  | _ => none

end Boxes

end TwinEngine.Machine
