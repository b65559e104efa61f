import TwinEngine.Machine.Slots

/-!
Contract: values become slots and slots become values again without loss.

Owns: that a payload is its two halves, that a value is told from its payload, and both round trips
between lists of values and lists of slots.
-/

namespace TwinEngine

namespace Machine

variable (low high : UInt32) (payload : UInt64)

theorem toNat_joinSlots : (joinSlots low high).toNat = high.toNat * 2 ^ 32 + low.toNat := by
  have lowSmall := low.toNat_lt
  have highSmall := high.toNat_lt
  have fits : high.toNat <<< 32 < 2 ^ 64 := by
    omega
  rw [joinSlots, UInt64.toNat_or, UInt64.toNat_shiftLeft, UInt32.toNat_toUInt64,
    UInt32.toNat_toUInt64]
  change high.toNat <<< 32 % 2 ^ 64 ||| _ = _
  rw [Nat.mod_eq_of_lt fits, ← Nat.shiftLeft_add_eq_or_of_lt lowSmall, Nat.shiftLeft_eq]

theorem toNat_lowSlot : (lowSlot payload).toNat = payload.toNat % 2 ^ 32 :=
  UInt64.toNat_toUInt32 payload

theorem toNat_highSlot : (highSlot payload).toNat = payload.toNat / 2 ^ 32 := by
  have small := payload.toNat_lt
  rw [highSlot, UInt64.toNat_toUInt32, UInt64.toNat_shiftRight]
  change payload.toNat >>> 32 % 2 ^ 32 = _
  omega

@[simp]
theorem lowSlot_joinSlots : lowSlot (joinSlots low high) = low := by
  have small := low.toNat_lt
  rw [← UInt32.toNat_inj, toNat_lowSlot, toNat_joinSlots]
  omega

@[simp]
theorem highSlot_joinSlots : highSlot (joinSlots low high) = high := by
  have small := low.toNat_lt
  rw [← UInt32.toNat_inj, toNat_highSlot, toNat_joinSlots]
  omega

theorem joinSlots_lowSlot_highSlot : joinSlots (lowSlot payload) (highSlot payload) = payload := by
  rw [← UInt64.toNat_inj, toNat_joinSlots, toNat_lowSlot, toNat_highSlot]
  omega

theorem joinSlots_zero : joinSlots low 0 = low.toUInt64 := by
  rw [← UInt64.toNat_inj, toNat_joinSlots, UInt32.toNat_toUInt64]
  exact Nat.zero_add _

theorem halves_of_null {low high : UInt32} (null : joinSlots low high = nullPayload) :
    low = 0xffffffff ∧ high = 0xffffffff := by
  have lowHalf := lowSlot_joinSlots low high
  have highHalf := highSlot_joinSlots low high
  rw [null] at lowHalf highHalf
  exact ⟨lowHalf.symm, highHalf.symm⟩

end Machine

open Machine

/-! ## One value -/

@[simp]
theorem FuncRef.ofPayload_payload (reference : FuncRef) :
    ofPayload reference.payload = reference := by
  change FuncRef.mk (highSlot (joinSlots _ _)) (lowSlot (joinSlots _ _)) = reference
  rw [lowSlot_joinSlots, highSlot_joinSlots]

variable (kind : ValueKind) (payload : UInt64)

namespace Value

@[simp]
theorem kind_ofPayload : (ofPayload kind payload).kind = kind := by
  cases kind <;> rfl

/-- A value is told from its payload, unless it is a reference with the payload of null. -/
theorem ofPayload_payload (value : Value)
    (index : ∀ reference, value = funcRef (some reference) → reference.index ≠ 0xffffffff) :
    ofPayload value.kind value.payload = value := by
  cases value with
  | i32 bits => exact congrArg i32 bits.toUInt32_toUInt64
  | f32 bits => exact congrArg f32 bits.toUInt32_toUInt64
  | i64 | f64 => rfl
  | funcRef target =>
    cases target with
    | none => rfl
    | some reference =>
      have other : reference.payload ≠ nullPayload := fun null =>
        index reference rfl (halves_of_null null).1
      rw [kind, Value.payload, ofPayload, if_neg other, FuncRef.ofPayload_payload]
  | externRef target =>
    cases target with
    | none => rfl
    | some handle =>
      have other : handle.toUInt64 ≠ nullPayload := by
        rw [← joinSlots_zero]
        intro null
        cases (halves_of_null null).2
      rw [kind, Value.payload, ofPayload, if_neg other, handle.toUInt32_toUInt64]

end Value

namespace Machine

theorem length_payloadSlots : (payloadSlots kind payload).length = kind.slots := by
  cases kind <;> rfl

theorem decodeValues_payloadSlots (kinds : List ValueKind) (rest : List UInt32) :
    decodeValues (kind :: kinds) (payloadSlots kind payload ++ rest) =
      .ofPayload kind payload :: decodeValues kinds rest := by
  cases kind with
  | i32 => exact congrArg (Value.i32 · :: _) (lowSlot payload).toUInt32_toUInt64
  | f32 => exact congrArg (Value.f32 · :: _) (lowSlot payload).toUInt32_toUInt64
  | i64 | f64 | funcRef | externRef =>
    exact congrArg (Value.ofPayload _ · :: _) (joinSlots_lowSlot_highSlot payload)

/-- The slots of a payload are those of the value that is read in it. An external reference keeps
only its low half, unless it is null. -/
theorem payloadSlots_ofPayload
    (pair : kind = .externRef → payload = nullPayload ∨ highSlot payload = 0) :
    payloadSlots kind (Value.ofPayload kind payload).payload = payloadSlots kind payload := by
  by_cases null : payload = nullPayload
  · rw [null]
    cases kind <;> rfl
  cases kind with
  | i32 | f32 => exact congrArg ([·]) (lowSlot payload).toUInt32_toUInt64
  | i64 | f64 => rfl
  | funcRef =>
    rw [Value.ofPayload, if_neg null]
    exact congrArg (payloadSlots _) (joinSlots_lowSlot_highSlot payload)
  | externRef =>
    have narrow : (lowSlot payload).toUInt64 = payload := by
      rw [← joinSlots_zero, ← (pair rfl).resolve_left null, joinSlots_lowSlot_highSlot]
    rw [Value.ofPayload, if_neg null]
    exact congrArg (payloadSlots _) narrow

/-! ## Lists of values -/

theorem encodeValues_cons (value : Value) (values : List Value) :
    encodeValues (value :: values) = payloadSlots value.kind value.payload ++ encodeValues values :=
  rfl

theorem length_encodeValues (values : List Value) :
    (encodeValues values).length = ValueKind.slotCount (values.map Value.kind) := by
  simp [encodeValues, ValueKind.slotCount, length_payloadSlots, Function.comp_def]

theorem decodeValues_encodeValues (values : List Value)
    (indices : ∀ reference, .funcRef (some reference) ∈ values → reference.index ≠ 0xffffffff) :
    decodeValues (values.map Value.kind) (encodeValues values) = values := by
  induction values with
  | nil => rfl
  | cons value values ih =>
    have first := value.ofPayload_payload fun reference same => indices reference (same ▸ .head _)
    have rest := ih fun reference member => indices reference (.tail _ member)
    rw [List.map_cons, encodeValues_cons, decodeValues_payloadSlots, first, rest]

/-- The payload in the first two slots, of which a kind of one slot has only the low half. -/
def firstPayload (slots : List UInt32) : UInt64 := joinSlots (slots.getD 0 0) (slots.getD 1 0)

theorem payloadSlots_firstPayload (slots : List UInt32) (enough : kind.slots ≤ slots.length) :
    payloadSlots kind (firstPayload slots) ++ slots.drop kind.slots = slots := by
  rcases slots with _ | ⟨low, _ | ⟨high, rest⟩⟩ <;>
    cases kind <;> simp_all [payloadSlots, firstPayload, ValueKind.slots]

/-- Each pair of slots that stands for an external reference is null or has a zero high half. -/
def ExternPairs : List ValueKind → List UInt32 → Prop
  | [], _ => True
  | kind :: kinds, slots =>
    (kind = .externRef → firstPayload slots = nullPayload ∨ slots.getD 1 0 = 0) ∧
      ExternPairs kinds (slots.drop kind.slots)

theorem encodeValues_decodeValues (kinds : List ValueKind) (slots : List UInt32)
    (width : slots.length = ValueKind.slotCount kinds) (pairs : ExternPairs kinds slots) :
    encodeValues (decodeValues kinds slots) = slots := by
  induction kinds generalizing slots with
  | nil => exact (List.eq_nil_of_length_eq_zero width).symm
  | cons kind kinds ih =>
    obtain ⟨pair, pairs⟩ := pairs
    have total : slots.length = kind.slots + ValueKind.slotCount kinds := width
    have rest := ih (slots.drop kind.slots) (by rw [List.length_drop]; omega) pairs
    have whole := payloadSlots_firstPayload kind slots (by omega)
    have first := payloadSlots_ofPayload kind (firstPayload slots)
      (by rwa [firstPayload, highSlot_joinSlots])
    have read := decodeValues_payloadSlots kind (firstPayload slots) kinds (slots.drop kind.slots)
    rw [whole] at read
    rw [read, encodeValues_cons, Value.kind_ofPayload, first, rest, whole]

/-- Values are read back from their slots, of which there are as many as their kinds say, and slots
from the values that are read in them. -/
theorem slots_roundTrip :
    (∀ values : List Value,
      (∀ reference, .funcRef (some reference) ∈ values → reference.index.toNat < 2 ^ 32 - 1) →
      (encodeValues values).length = ValueKind.slotCount (values.map Value.kind) ∧
        decodeValues (values.map Value.kind) (encodeValues values) = values) ∧
    ∀ kinds slots, slots.length = ValueKind.slotCount kinds → ExternPairs kinds slots →
      encodeValues (decodeValues kinds slots) = slots := by
  refine ⟨fun values indices => ⟨length_encodeValues values, ?_⟩, encodeValues_decodeValues⟩
  refine decodeValues_encodeValues values fun reference member last => ?_
  have small := indices reference member
  rw [last] at small
  exact absurd small (by decide)

theorem slots_roundTrip_references :
    decodeValues [.funcRef, .i32] (encodeValues [.funcRef (some ⟨7, 8⟩), .i32 5]) =
      [.funcRef (some ⟨7, 8⟩), .i32 5] ∧
    encodeValues (decodeValues [.externRef, .f32, .externRef] [0xffffffff, 0xffffffff, 1, 2, 0]) =
      [0xffffffff, 0xffffffff, 1, 2, 0] :=
  ⟨(slots_roundTrip.1 [.funcRef (some ⟨7, 8⟩), .i32 5] (by simp)).2,
    slots_roundTrip.2 _ _ rfl ⟨fun _ => .inl rfl, fun absurd => (by cases absurd), fun _ =>
      .inr rfl,
      trivial⟩⟩

end Machine

end TwinEngine
