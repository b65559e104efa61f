import TwinEngine.Value

/-!
Contract: values as machine slots.

Owns: the flattening of values into 32-bit slots and its inverse.

A value of two slots has its low half first.
-/

namespace TwinEngine.Machine

def lowSlot (payload : UInt64) : UInt32 := payload.toUInt32

def highSlot (payload : UInt64) : UInt32 := (payload >>> 32).toUInt32

def joinSlots (low high : UInt32) : UInt64 := (high.toUInt64 <<< 32) ||| low.toUInt64

def payloadSlots (kind : ValueKind) (payload : UInt64) : List UInt32 :=
  if kind.slots = 1 then [lowSlot payload] else [lowSlot payload, highSlot payload]

def encodeValues (values : List Value) : List UInt32 :=
  values.flatMap fun value => payloadSlots value.kind value.payload

/-- Values of the given kinds. Slots that are missing are zero. -/
def decodeValues : List ValueKind → List UInt32 → List Value
  | [], _ => []
  | kind :: kinds, slots =>
    let low := slots.headD 0
    if kind.slots = 1 then
      .ofPayload kind low.toUInt64 :: decodeValues kinds (slots.drop 1)
    else
      .ofPayload kind (joinSlots low (slots.getD 1 0)) :: decodeValues kinds (slots.drop 2)

end TwinEngine.Machine
