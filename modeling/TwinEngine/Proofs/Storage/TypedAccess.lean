import TwinEngine.Proofs.Numeric.Integers
import TwinEngine.Proofs.Storage.Overwriting

/-!
Contract: what loads read after a store.

Owns: the number that bytes in memory make, its extension to the payload of a load, and what every
load sees of a store, at the same place, across its ends and apart from it.
-/

namespace TwinEngine

/-- The payload of a load that reads a number. -/
def LoadKind.extended (kind : LoadKind) (number : Nat) : UInt64 :=
  Numeric.payloadOf (32 * kind.result.slots)
    (if kind.signed then Int.bmod number (2 ^ (8 * kind.width)) else number)

namespace Memory

/-- The number with the given bytes, the lowest first. -/
def numberOf : Nat → (Nat → UInt8) → Nat
  | 0, _ => 0
  | width + 1, byte => (byte 0).toNat + 256 * numberOf width fun index => byte (index + 1)

theorem numberOf_lt (width : Nat) (byte : Nat → UInt8) : numberOf width byte < 2 ^ (8 * width) := by
  induction width generalizing byte with
  | zero => exact Nat.one_pos
  | succ width ih =>
    have first := (byte 0).toNat_lt
    have rest := ih fun index => byte (index + 1)
    rw [numberOf, Nat.mul_succ, Nat.pow_add]
    omega

theorem numberOf_congr (same : ∀ index < width, byte index = other index) :
    numberOf width byte = numberOf width other := by
  induction width generalizing byte other with
  | zero => rfl
  | succ width ih =>
    rw [numberOf, numberOf, same 0 (by omega), ih fun index less => same (index + 1) (by omega)]

theorem numberOf_byteOf (width : Nat) (value : UInt64) :
    numberOf width (byteOf value) = value.toNat % 2 ^ (8 * width) := by
  induction width generalizing value with
  | zero => exact (Nat.mod_one _).symm
  | succ width ih =>
    have first : (byteOf value 0).toNat = value.toNat % 2 ^ 8 := by simp [byteOf]
    have shifted : (value >>> 8).toNat = value.toNat / 2 ^ 8 := by
      simp [UInt64.toNat_shiftRight, Nat.shiftRight_eq_div_pow]
    have rest : (fun index => byteOf value (index + 1)) = byteOf (value >>> 8) :=
      (funext (byteOf_shiftRight value)).symm
    rw [numberOf, first, rest, ih, shifted, Nat.mul_succ, Nat.add_comm (8 * width), Nat.pow_add,
      Nat.mod_mul]

theorem toNat_littleEndianAt (bytes : ByteArray) (few : width ≤ 8) (address : Nat) :
    (littleEndianAt bytes width address).toNat =
      numberOf width fun index => bytes.get! (address + index) := by
  induction width generalizing address with
  | zero => rfl
  | succ width ih =>
    have rest := ih (by omega) (address + 1)
    have small := numberOf_lt width fun index => bytes.get! (address + 1 + index)
    have power : 2 ^ (8 * width) ≤ 2 ^ 56 := Nat.pow_le_pow_right Nat.two_pos (by omega)
    have shifted : (littleEndianAt bytes width (address + 1) <<< 8).toNat =
        (littleEndianAt bytes width (address + 1)).toNat <<< 8 := by
      refine (UInt64.toNat_shiftLeft _ _).trans (Nat.mod_eq_of_lt ?_)
      show _ <<< 8 < _
      rw [rest, Nat.shiftLeft_eq]
      omega
    have first : (bytes.get! address).toUInt64.toNat < 2 ^ 8 := (bytes.get! address).toNat_lt
    rw [littleEndianAt, UInt64.toNat_or, shifted, Nat.or_comm,
      ← Nat.shiftLeft_add_eq_or_of_lt first, rest, numberOf, Nat.shiftLeft_eq, Nat.add_comm,
      Nat.mul_comm]
    simp [Nat.add_assoc, Nat.add_comm 1]

theorem width_le (kind : LoadKind) : 8 * kind.width ≤ 32 * kind.result.slots := by
  cases kind <;> simp [LoadKind.width, LoadKind.result, ValueKind.slots]

theorem extend_eq (kind : LoadKind) (small : raw.toNat < 2 ^ (8 * kind.width)) :
    extend kind raw = kind.extended raw.toNat := by
  have plain : raw = Numeric.payloadOf (32 * kind.result.slots) raw.toNat := by
    have power := Nat.lt_of_lt_of_le small (Nat.pow_le_pow_right Nat.two_pos (width_le kind))
    rw [Numeric.payloadOf_natCast, Nat.mod_eq_of_lt power, UInt64.ofNat_toNat]
  rcases kind with _ | _ | _ | _ | (_ | _) | (_ | _) | (_ | _) | (_ | _) | (_ | _)
  case i32From8.signed | i32From16.signed | i64From8.signed | i64From16.signed | i64From32.signed =>
    rw [LoadKind.extended, if_pos (by rfl), extend, Numeric.signExtend_eq]
    rfl
  all_goals exact plain

theorem load_eq (memory : Memory) (kind : LoadKind) (place : Nat) :
    memory.load kind place = if place + kind.width ≤ memory.size then
      .ok (kind.extended (numberOf kind.width fun index => memory.bytes.get! (place + index)))
    else .error .memoryOutOfBounds := by
  have few : kind.width ≤ 8 := by cases kind <;> simp [LoadKind.width]
  have number := toNat_littleEndianAt memory.bytes few place
  rw [← number, ← extend_eq kind (number ▸ numberOf_lt _ _)]
  simp only [load, inBounds, decide_eq_true_iff]
  rfl

/-- The byte that stands at a place after a store. -/
def byteAfter (memory : Memory) (kind : StoreKind) (address : Nat) (payload : UInt64)
    (place : Nat) : UInt8 :=
  if address ≤ place ∧ place < address + kind.width then byteOf payload (place - address)
  else memory.bytes.get! place

theorem get!_eq (bytes : ByteArray) (place : Nat) :
    bytes.get! place = bytes.data[place]?.getD 0 := by
  show bytes.data[place]! = _
  rw [getElem!_def]
  cases bytes.data[place]? <;> rfl

/-- Every load after a store reads the bytes of the payload where the two overlap, and those from
before elsewhere. So a load of the same width at the same place reads the payload's low bits back,
and a load apart from the store reads what it read before. -/
theorem loads_after_store (memory : Memory) (kind : StoreKind) (address : Nat) (payload : UInt64)
    (inside : address + kind.width ≤ memory.size) :
    ∃ after, memory.store kind address payload = .ok after ∧
      (∀ reader : LoadKind, reader.width = kind.width → after.load reader address =
        .ok (reader.extended (payload.toNat % 2 ^ (8 * kind.width)))) ∧
      (∀ (reader : LoadKind) place, after.load reader place =
        if place + reader.width ≤ memory.size then
          .ok (reader.extended (numberOf reader.width fun index =>
            memory.byteAfter kind address payload (place + index)))
        else .error .memoryOutOfBounds) ∧
      (∀ (reader : LoadKind) place, place + reader.width ≤ address ∨ address + kind.width ≤ place →
        after.load reader place = memory.load reader place) ∧
      ∀ (reader : LoadKind) place result, reader.result.slots = 1 →
        after.load reader place = .ok result → result.toNat < 2 ^ 32 := by
  obtain ⟨_, after, stored, _, overwrites⟩ :=
    (checked_store memory kind address payload).resolve_right fun refused => refused.1 inside
  have size : after.size = memory.size := overwrites.size
  have bytes (place : Nat) :
      after.bytes.get! place = memory.byteAfter kind address payload place := by
    rw [get!_eq, overwrites.items, byteAfter, get!_eq]
    split <;> rfl
  have reads := load_eq after
  simp only [bytes, size] at reads
  refine ⟨after, stored, fun reader same => ?_, reads, fun reader place apart => ?_,
    fun reader place result narrow loaded => ?_⟩
  · rw [reads, if_pos (same ▸ inside), ← numberOf_byteOf, same]
    refine congrArg _ (congrArg _ (numberOf_congr fun index less => ?_))
    rw [byteAfter, if_pos (by omega), Nat.add_sub_cancel_left]
  · have same (index : Nat) (less : index < reader.width) :
        memory.byteAfter kind address payload (place + index) = memory.bytes.get! (place + index) :=
      if_neg (by omega)
    rw [reads, load_eq, numberOf_congr same]
  · rw [reads] at loaded
    split at loaded <;> cases loaded
    rw [LoadKind.extended, narrow]
    exact Numeric.toNat_payloadOf_lt _

/-- The sign bit of a stored half word fills the upper half of the payload. -/
theorem loads_after_store_halfWord : ∃ after : Memory,
    (Memory.mk ⟨#[1, 2, 3, 4]⟩ 0).store .i64To16 1 0x180ff = .ok after ∧
      after.load (.i32From16 .signed) 1 = .ok 0xffff80ff ∧
      after.load (.i64From8 .unsigned) 3 = .ok 4 := by
  obtain ⟨after, stored, same, _, apart, _⟩ :=
    loads_after_store ⟨⟨#[1, 2, 3, 4]⟩, 0⟩ .i64To16 1 0x180ff (by decide)
  exact ⟨after, stored, (same (.i32From16 .signed) rfl).trans (congrArg Except.ok (by decide)),
    apart (.i64From8 .unsigned) 3 (.inr (by decide))⟩

end Memory

end TwinEngine
