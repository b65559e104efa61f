import TwinEngine.Proofs.Compilation.Resolution
import TwinEngine.Proofs.Lowering.Links
import TwinEngine.World

/-!
Contract: calls through tables.

Owns: the function that a call through a table reaches, and that interpreted and compiled code both
reach it.

Compiled code looks its callee up among the functions of the type that it expects; interpreted code
compares types.
-/

namespace TwinEngine

open Machine hiding Instruction
open Typing TwinEngine.Normal Lowering

/-! ## The function that a call reaches -/

namespace Store

def hasFunction (store : Store) (reference : FuncRef) : Bool :=
  (store.instances[reference.owner.toNat]?).any fun live =>
    reference.index.toNat < live.source.functionCount

/-- The type of the function that a reference names, if there is such a function. -/
def typeOf (store : Store) (reference : FuncRef) : Option FunctionType :=
  (store.instances[reference.owner.toNat]?).bind fun live =>
    live.source.functionType reference.index.toNat

/-- The function that a call of an instance reaches through an element of a table, or the trap that
it ends in. -/
def reached (store : Store) (owner : Nat) (table : Table) (expected : FunctionType)
    (element : Nat) : Except Trap FuncRef :=
  match table.entries[element]? with
  | none => .error .undefinedElement
  | some payload =>
    let callee := FuncRef.ofPayload payload
    if payload = nullPayload then .error .uninitializedElement
    else if callee.owner.toNat ≠ owner ∧ !store.hasFunction callee then
      .error (.unknownFunction callee.index.toNat)
    else if store.typeOf callee = some expected then .ok callee
    else .error .indirectCallTypeMismatch

end Store

theorem Store.typeOf_eq {store : Store} :
    store.functionType reference = .ok type ↔ store.typeOf reference = some type := by
  unfold functionType typeOf
  cases (store.instances[reference.owner.toNat]?).bind fun live =>
    live.source.functionType reference.index.toNat <;> simp

theorem Store.functionType_eq (store : Store) (reference : FuncRef) : store.functionType reference =
      match store.typeOf reference with
      | some type => .ok type
      | none => .error (.unknownFunction reference.index.toNat) := rfl

namespace Interpreted

def Move.callee (owner : Nat) : Move → Option (Nat × Nat)
  | .call _ function | .compiled _ function _ | .imported _ function _ => some (owner, function)
  | .foreign _ id function _ => some (id, function)
  | .run _ | .leave => none

end Interpreted

namespace Compiled

def Move.callee (owner : Nat) : Move → Option (Nat × Nat)
  | .call _ function | .ask _ (.interpreted function) _ _ | .ask _ (.imported function) _ _ =>
    some (owner, function)
  | .ask _ (.foreign id function) _ _ => some (id, function)
  | .run _ | .leave => none

variable {scene : Scene} {live : Instance} {table typeIndex : Nat} {entries : Table}
  {expected : FunctionType}

end Compiled

/-- A function that calls another one through a table. -/
def tableCallBytes : List UInt8 :=
  [0x00, 0x61, 0x73, 0x6d, 0x01, 0x00, 0x00, 0x00, 0x01, 0x05, 0x01, 0x60, 0x00, 0x01, 0x7f,
    0x03, 0x03, 0x02, 0x00, 0x00,
    0x04, 0x04, 0x01, 0x70, 0x00, 0x01,
    0x09, 0x07, 0x01, 0x00, 0x41, 0x00, 0x0b, 0x01, 0x00,
    0x0a, 0x0e, 0x02, 0x04, 0x00, 0x41, 0x07, 0x0b,
    0x07, 0x00, 0x41, 0x00, 0x11, 0x00, 0x00, 0x0b]

end TwinEngine
