import TwinEngine.Numeric.Power

/-!
Contract: value kinds, function types and values.

Owns:
- the six kinds of value and their width in 32-bit slots;
- function types, compared by their lists of kinds;
- values, with floating-point numbers kept as bit patterns;
- the 64-bit payload of a value and its reading back at a kind.

Does not own: the text of values (`Value.Text`), or the slots of a machine (`Machine.Slots`).
-/

namespace TwinEngine

inductive ValueKind where
  | i32
  | i64
  | f32
  | f64
  | funcRef
  | externRef
deriving DecidableEq, Repr, Inhabited

namespace ValueKind

def slots : ValueKind → Nat
  | .i32 | .f32 => 1
  | .i64 | .f64 | .funcRef | .externRef => 2

def isRef : ValueKind → Bool
  | .funcRef | .externRef => true
  | _ => false

def slotCount (kinds : List ValueKind) : Nat :=
  (kinds.map slots).sum

end ValueKind

structure FunctionType where
  params : List ValueKind
  results : List ValueKind
deriving DecidableEq, Repr, Inhabited

namespace FunctionType

def empty : FunctionType := ⟨[], []⟩

def paramSlots (type : FunctionType) : Nat :=
  ValueKind.slotCount type.params

def resultSlots (type : FunctionType) : Nat :=
  ValueKind.slotCount type.results

end FunctionType

/-- A reference to a function: the instance that owns it and its index there. -/
structure FuncRef where
  owner : UInt32
  index : UInt32
deriving DecidableEq, Repr, Inhabited

inductive Value where
  | i32 (bits : UInt32)
  | i64 (bits : UInt64)
  | f32 (bits : UInt32)
  | f64 (bits : UInt64)
  | funcRef (target : Option FuncRef)
  | externRef (target : Option UInt32)
deriving DecidableEq, Repr, Inhabited

def nullPayload : UInt64 := 0xffffffffffffffff

def ValueKind.default : ValueKind → Value
  | .i32 => .i32 0
  | .i64 => .i64 0
  | .f32 => .f32 0
  | .f64 => .f64 0
  | .funcRef => .funcRef none
  | .externRef => .externRef none

namespace FuncRef

/-- Owner in the high half, index in the low half. -/
def payload (reference : FuncRef) : UInt64 :=
  (reference.owner.toUInt64 <<< 32) ||| reference.index.toUInt64

def ofPayload (payload : UInt64) : FuncRef :=
  ⟨(payload >>> 32).toUInt32, payload.toUInt32⟩

end FuncRef

namespace Value

def kind : Value → ValueKind
  | .i32 _ => .i32
  | .i64 _ => .i64
  | .f32 _ => .f32
  | .f64 _ => .f64
  | .funcRef _ => .funcRef
  | .externRef _ => .externRef

/-- The 64-bit payload of a value. The reference to the last function of the last instance has the
payload of null. -/
def payload : Value → UInt64
  | .i32 bits => bits.toUInt64
  | .i64 bits => bits
  | .f32 bits => bits.toUInt64
  | .f64 bits => bits
  | .funcRef none => nullPayload
  | .funcRef (some reference) => reference.payload
  | .externRef none => nullPayload
  | .externRef (some handle) => handle.toUInt64

/-- The value of a kind with the given payload; bits above the kind's width are dropped. -/
def ofPayload (kind : ValueKind) (payload : UInt64) : Value :=
  match kind with
  | .i32 => .i32 payload.toUInt32
  | .i64 => .i64 payload
  | .f32 => .f32 payload.toUInt32
  | .f64 => .f64 payload
  | .funcRef => .funcRef (if payload = nullPayload then none else some (.ofPayload payload))
  | .externRef => .externRef (if payload = nullPayload then none else some payload.toUInt32)

def isNull : Value → Bool
  | .funcRef none | .externRef none => true
  | _ => false

end Value

end TwinEngine
