import TwinEngine.Memory
import TwinEngine.Table

/-!
Contract: what the checked operations on memories and tables write.

Owns: the positions that an operation sets and what it sets them to, and the ranges for which it
traps instead.

What an operation writes is told by position, so that overlapping ranges need no care: every item
that is read is one from before the operation.
-/

namespace TwinEngine

open Array

/-- `count` positions from `start` on are set to what `item` gives, and no others. -/
structure Overwrites {α : Type} (before after : Array α) (start count : Nat)
    (item : Nat → Option α) : Prop where
  size : after.size = before.size
  items : ∀ place, after[place]? =
    if start ≤ place ∧ place < start + count then item (place - start) else before[place]?

/-- An operation that traps unless its ranges fit. -/
def Checked {α : Type} (trap : Trap) (fits : Prop) (result : Except Trap α) (done : α → Prop) :
    Prop :=
  (fits ∧ ∃ after, result = .ok after ∧ done after) ∨ (¬ fits ∧ result = .error trap)

variable {α : Type} {trap : Trap} {fits : Prop} {after : α} {done : α → Prop}

theorem checked_ite {test : Prop} [Decidable test] (tests : test ↔ fits) (holds : fits → done after)
    : Checked trap fits (if test then .ok after else .error trap) done := by
  by_cases fit : fits
  · rw [if_pos (tests.mpr fit)]
    exact .inl ⟨fit, after, rfl, holds fit⟩
  · rw [if_neg (mt tests.mp fit)]
    exact .inr ⟨fit, rfl⟩

theorem Checked.of_ok (checked : Checked trap fits result done) (ok : result = .ok after) :
    done after := by
  rcases checked with ⟨_, _, same, holds⟩ | ⟨_, refused⟩
  · cases same.symm.trans ok
    exact holds
  · cases refused.symm.trans ok

namespace Overwrites

variable {α : Type} {before after : Array α} {start count : Nat} {item : Nat → Option α}

theorem refl (before : Array α) (start : Nat) (item : Nat → Option α) :
    Overwrites before before start 0 item :=
  ⟨rfl, fun _ => by rw [if_neg (by omega)]⟩

theorem congr (overwrites : Overwrites before after start count item)
    (same : ∀ index < count, item index = other index) :
    Overwrites before after start count other := by
  refine ⟨overwrites.size, fun _ => ?_⟩
  rw [overwrites.items]
  split
  · exact same _ (by omega)
  · rfl

/-- One position is set, and then those behind it. -/
theorem cons (inside : start < before.size)
    (rest : Overwrites (before.setIfInBounds start first) after (start + 1) count
      fun index => item (index + 1)) (same : item 0 = some first) :
    Overwrites before after start (count + 1) item := by
  refine ⟨rest.size.trans size_setIfInBounds, fun place => ?_⟩
  rw [rest.items, getElem?_setIfInBounds]
  rcases Nat.lt_trichotomy place start with _ | rfl | _
  · rw [if_neg (by omega), if_neg (by omega), if_neg (by omega)]
  · rw [if_neg (by omega), if_pos rfl, if_pos inside, if_pos (by omega), Nat.sub_self, same]
  · have next : place - (start + 1) + 1 = place - start := by omega
    rw [next, if_neg (by omega : ¬ start = place)]
    by_cases covered : place < start + (count + 1)
    · rw [if_pos (by omega), if_pos (by omega)]
    · rw [if_neg (by omega), if_neg (by omega)]

end Overwrites

namespace Memory

theorem size_data (bytes : ByteArray) : bytes.data.size = bytes.size := rfl

theorem overwrites_setAll (value : UInt8) (count start : Nat) (bytes : ByteArray)
    (inside : start + count ≤ bytes.size) :
    Overwrites bytes.data (setAll value count start bytes).data start count
      fun _ => some value := by
  induction count generalizing start bytes with
  | zero => exact .refl _ _ _
  | succ count ih =>
    have rest := ih (start + 1) (bytes.set! start value) (by rw [ByteArray.size_set!]; omega)
    exact .cons (by rw [size_data]; omega) rest rfl

/-- The byte of a number at a place, counted from the lowest. -/
def byteOf (value : UInt64) (place : Nat) : UInt8 := UInt8.ofNat (value.toNat / 2 ^ (8 * place))

theorem byteOf_shiftRight (value : UInt64) (place : Nat) :
    byteOf (value >>> 8) place = byteOf value (place + 1) := by
  have shifted : (value >>> 8).toNat = value.toNat / 2 ^ 8 := by
    simp [UInt64.toNat_shiftRight, Nat.shiftRight_eq_div_pow]
  rw [byteOf, shifted, Nat.div_div_eq_div_mul, ← Nat.pow_add, byteOf, Nat.mul_succ, Nat.add_comm]

theorem overwrites_setLittleEndian (width start : Nat) (value : UInt64) (bytes : ByteArray)
    (inside : start + width ≤ bytes.size) :
    Overwrites bytes.data (setLittleEndian bytes width start value).data start width
      fun index => some (byteOf value index) := by
  induction width generalizing start value bytes with
  | zero => exact .refl _ _ _
  | succ width ih =>
    have rest := ih (start + 1) (value >>> 8) (bytes.set! start value.toUInt8)
      (by rw [ByteArray.size_set!]; omega)
    refine .cons (by rw [size_data]; omega) (rest.congr fun index _ => ?_) (by simp [byteOf])
    rw [byteOf_shiftRight]

theorem overwrites_copySlice (origin : ByteArray) (source : Nat) (bytes : ByteArray)
    (start count : Nat) (inside : start + count ≤ bytes.size)
    (present : source + count ≤ origin.size) :
    Overwrites bytes.data (origin.copySlice source bytes start count).data start count
      fun index => origin.data[source + index]? := by
  have size := size_data bytes
  have length := size_data origin
  refine ⟨?_, fun _ => ?_⟩
  · simp only [ByteArray.copySlice, size_append, size_extract]
    omega
  · simp only [ByteArray.copySlice, getElem?_append, getElem?_extract, size_extract, size_append]
    grind

theorem data_zeros (count : Nat) (bytes : ByteArray) :
    (zeros count bytes).data = bytes.data ++ Array.replicate count 0 := by
  induction count generalizing bytes with
  | zero => simp [zeros]
  | succ count ih =>
    rw [zeros, ih, ByteArray.data_push, replicate_succ', push_eq_append, append_assoc]

/-- Bytes are written, and the limit of the memory stays. -/
def Written (memory : Memory) (start count : Nat) (item : Nat → Option UInt8) (after : Memory) :
    Prop :=
  after.maximum = memory.maximum ∧
    Overwrites memory.bytes.data after.bytes.data start count item

variable (memory : Memory)

theorem checked_write (address : Nat) (data : ByteArray) :
    Checked .memoryOutOfBounds (address + data.size ≤ memory.size) (memory.write address data)
      (memory.Written address data.size (data.data[·]?)) := by
  refine checked_ite decide_eq_true_iff fun fits => ⟨rfl, ?_⟩
  exact (overwrites_copySlice data 0 _ _ _ fits (by omega)).congr fun _ _ => by rw [Nat.zero_add]

theorem checked_store (kind : StoreKind) (address : Nat) (payload : UInt64) :
    Checked .memoryOutOfBounds (address + kind.width ≤ memory.size)
      (memory.store kind address payload)
      (memory.Written address kind.width fun index => some (byteOf payload index)) :=
  checked_ite decide_eq_true_iff fun fits => ⟨rfl, overwrites_setLittleEndian _ _ _ _ fits⟩

theorem checked_fill (target : Nat) (value : UInt8) (length : Nat) :
    Checked .memoryOutOfBounds (target + length ≤ memory.size) (memory.fill target value length)
      (memory.Written target length fun _ => some value) :=
  checked_ite decide_eq_true_iff fun fits => ⟨rfl, overwrites_setAll _ _ _ _ fits⟩

theorem checked_init (target : Nat) (data : ByteArray) (source length : Nat) :
    Checked .memoryOutOfBounds (source + length ≤ data.size ∧ target + length ≤ memory.size)
      (memory.init target data source length)
      (memory.Written target length fun index => data.data[source + index]?) := by
  refine checked_ite (by simp [inBounds, size]) fun fits => ⟨rfl, ?_⟩
  exact overwrites_copySlice _ _ _ _ _ fits.2 fits.1

theorem checked_copy (target source length : Nat) :
    Checked .memoryOutOfBounds (source + length ≤ memory.size ∧ target + length ≤ memory.size)
      (memory.copy target source length)
      (memory.Written target length fun index => memory.bytes.data[source + index]?) := by
  refine checked_ite (by simp [inBounds, size]) fun fits => ⟨rfl, ?_⟩
  have present : source + length ≤ memory.bytes.size := fits.1
  refine (overwrites_copySlice _ 0 _ _ _ fits.2 ?_).congr fun index _ => ?_
  · rw [ByteArray.size_extract]
    omega
  · rw [ByteArray.data_extract, getElem?_extract, if_pos, Nat.zero_add]
    rw [size_data]
    omega

end Memory

namespace Table

theorem overwrites_writeAll (slice : List UInt64) (start : Nat) (entries : Array UInt64)
    (inside : start + slice.length ≤ entries.size) :
    Overwrites entries (writeAll slice start entries) start slice.length (slice[·]?) := by
  induction slice generalizing start entries with
  | nil => exact .refl _ _ _
  | cons _ slice ih =>
    rw [List.length_cons] at inside
    refine .cons (by omega) ((ih (start + 1) _ ?_).congr fun _ _ => rfl) rfl
    rw [size_setIfInBounds]
    omega

theorem setAll_eq (payload : UInt64) (count start : Nat) (entries : Array UInt64) :
    setAll payload count start entries = writeAll (List.replicate count payload) start entries := by
  induction count generalizing start entries with
  | zero => rfl
  | succ _ ih => exact ih _ _

theorem extendBy_eq (payload : UInt64) (count : Nat) (entries : Array UInt64) :
    extendBy payload count entries = entries ++ Array.replicate count payload := by
  induction count generalizing entries with
  | zero => simp [extendBy]
  | succ count ih => rw [extendBy, ih, replicate_succ', push_eq_append, append_assoc]

/-- Entries are written, and the kind and the limit of the table stay. -/
def Written (table : Table) (start count : Nat) (item : Nat → Option UInt64) (after : Table) :
    Prop :=
  after.element = table.element ∧ after.maximum = table.maximum ∧
    Overwrites table.entries after.entries start count item

variable (table : Table)

theorem checked_set (index : Nat) (payload : UInt64) :
    Checked .tableOutOfBounds (index < table.size) (table.set index payload)
      (table.Written index 1 fun _ => some payload) :=
  checked_ite Iff.rfl fun fits => ⟨rfl, rfl, .cons fits (.refl _ _ _) rfl⟩

theorem checked_fill (start : Nat) (payload : UInt64) (length : Nat) :
    Checked .tableOutOfBounds (start + length ≤ table.size) (table.fill start payload length)
      (table.Written start length fun _ => some payload) := by
  refine checked_ite decide_eq_true_iff fun _ => ⟨rfl, rfl, ?_⟩
  have written := overwrites_writeAll (List.replicate length payload) start table.entries
    (by rwa [List.length_replicate])
  rw [List.length_replicate] at written
  show Overwrites _ (setAll payload length start table.entries) _ _ _
  rw [setAll_eq]
  exact written.congr fun _ less => by simp [less]

theorem checked_copyFrom (target : Nat) (payloads : Array UInt64) (source length : Nat) :
    Checked .tableOutOfBounds (source + length ≤ payloads.size ∧ target + length ≤ table.size)
      (table.copyFrom target payloads source length)
      (table.Written target length fun index => payloads[source + index]?) := by
  refine checked_ite (by simp [inBounds]) fun fits => ⟨rfl, rfl, ?_⟩
  have size : (payloads.extract source (source + length)).toList.length = length := by
    simp only [length_toList, size_extract]
    omega
  have written := overwrites_writeAll (payloads.extract source (source + length)).toList target
    table.entries (by rw [size]; exact fits.2)
  rw [size] at written
  refine written.congr fun index _ => ?_
  rw [getElem?_toList, getElem?_extract, if_pos]
  omega

/-- Within one table the entries are read before any of them is written. -/
theorem checked_copyWithin (target source length : Nat) :
    Checked .tableOutOfBounds (source + length ≤ table.size ∧ target + length ≤ table.size)
      (table.copyWithin target source length)
      (table.Written target length fun index => table.entries[source + index]?) :=
  table.checked_copyFrom target table.entries source length

end Table

end TwinEngine
