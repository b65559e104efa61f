import TwinEngine.Proofs.Engine.Operators
import TwinEngine.Proofs.Lowering.Segments

/-!
Contract: the size of a memory, whatever is done to it.

Owns: sequences of accesses to a memory and what each of them answers, and the static offsets that
reach no memory.

Only growth changes the size, and growth keeps to the limit. So every memory ends in front of the
static offsets for which lowering writes a trap.
-/

namespace TwinEngine.Memory

/-- Something that is done to a memory. -/
inductive Access where
  | grow (delta : Nat)
  | write (address : Nat) (data : ByteArray)
  | store (kind : StoreKind) (address : Nat) (payload : UInt64)
  | fill (target : Nat) (value : UInt8) (length : Nat)
  | copy (target source length : Nat)
  | init (target : Nat) (data : ByteArray) (source length : Nat)

namespace Access

/-- A change that traps leaves the memory as it is. -/
def change (result : Memory → Except Trap Memory) : Effect Memory (Option Nat) := fun memory =>
  match result memory with
  | .ok after => (.ok none, after)
  | .error trap => (.error trap, memory)

/-- The answer is that of growth, or empty. -/
def perform : Access → Effect Memory (Option Nat)
  | .grow delta => fun memory => (.ok (memory.grow delta).1, (memory.grow delta).2)
  | .write address data => change (Memory.write · address data)
  | .store kind address payload => change (Memory.store · kind address payload)
  | .fill target value length => change (Memory.fill · target value length)
  | .copy target source length => change (Memory.copy · target source length)
  | .init target data source length => change (Memory.init · target data source length)

/-- The ranges that are accessed lie inside. -/
def Fits (memory : Memory) : Access → Prop
  | .grow _ => True
  | .write address data => address + data.size ≤ memory.size
  | .store kind address _ => address + kind.width ≤ memory.size
  | .fill target _ length => target + length ≤ memory.size
  | .copy target source length => source + length ≤ memory.size ∧ target + length ≤ memory.size
  | .init target data source length => source + length ≤ data.size ∧ target + length ≤ memory.size

/-- An access that keeps the size, and traps when a range ends outside. -/
def Keeps (memory : Memory) (access : Access) (answer : Except Trap (Option Nat))
    (after : Memory) : Prop :=
  (access.Fits memory ∧ answer = .ok none ∧ after.size = memory.size) ∨
    (¬ access.Fits memory ∧ answer = .error .memoryOutOfBounds ∧ after = memory)

/-- Growth gives the old size and adds zeros if the limit allows it, and else does nothing. -/
def Answers (limit : Nat) (memory : Memory) (access : Access) (answer : Except Trap (Option Nat))
    (after : Memory) : Prop :=
  match access with
  | .grow delta =>
    if memory.pages + delta ≤ limit then
      answer = .ok (some memory.pages) ∧ after.pages = memory.pages + delta ∧
        after.bytes.data = memory.bytes.data ++ Array.replicate (delta * pageSize) 0
    else answer = .ok none ∧ after = memory
  | _ => access.Keeps memory answer after

end Access

/-- Whole pages, no more than there were at first or than the limit allows. -/
structure Limited (initial limit : Nat) (memory : Memory) : Prop where
  maximum : memory.maximum = limit
  whole : memory.size = memory.pages * pageSize
  pages : memory.pages ≤ max initial limit

section

variable {initial limit : Nat} {memory after : Memory}

theorem size_of_zeros (count : Nat) (bytes : ByteArray) :
    (zeros (count * pageSize) bytes).size = bytes.size + count * pageSize := by
  rw [← size_data, data_zeros, Array.size_append, Array.size_replicate, size_data]

theorem pages_of_size (size : memory.size = count * pageSize) : memory.pages = count := by
  rw [pages, size, Nat.mul_div_cancel _ (by decide)]

theorem limited_of_size (size : memory.size = count * pageSize) (maximum : memory.maximum = limit)
    (few : count ≤ max initial limit) : memory.Limited initial limit :=
  ⟨maximum, by rw [pages_of_size size, size], by rwa [pages_of_size size]⟩

theorem Limited.change {access : Access} (limited : memory.Limited initial limit)
    (checked : Checked .memoryOutOfBounds (access.Fits memory) (result memory)
      (memory.Written start count item)) :
    access.Keeps memory (Access.change result memory).1 (Access.change result memory).2 ∧
      (Access.change result memory).2.Limited initial limit ∧
      memory.size ≤ (Access.change result memory).2.size := by
  unfold Access.change
  rcases checked with ⟨fits, after, done, maximum, overwrites⟩ | ⟨beyond, refused⟩
  · have size : after.size = memory.size := overwrites.size
    rw [done]
    exact ⟨.inl ⟨fits, rfl, size⟩, limited_of_size (size.trans limited.whole)
      (maximum.trans limited.maximum) limited.pages, Nat.le_of_eq size.symm⟩
  · rw [refused]
    exact ⟨.inr ⟨beyond, rfl, rfl⟩, limited, Nat.le_refl _⟩

/-- One access to a memory within its limit. -/
theorem Limited.perform (limited : memory.Limited initial limit) (access : Access) :
    access.Answers limit memory (access.perform memory).1 (access.perform memory).2 ∧
      (access.perform memory).2.Limited initial limit ∧
      memory.size ≤ (access.perform memory).2.size := by
  cases access with
  | grow delta =>
    have grows : memory.grow delta = if memory.pages + delta ≤ limit then
        (some memory.pages, ⟨zeros (delta * pageSize) memory.bytes, memory.maximum⟩)
        else (none, memory) := by
      rw [← limited.maximum]
      rfl
    simp only [Access.Answers, Access.perform, grows]
    split
    · have size := size_of_zeros delta memory.bytes
      have whole : (zeros (delta * pageSize) memory.bytes).size =
          (memory.pages + delta) * pageSize := by
        rw [size, Nat.add_mul, ← limited.whole]
        rfl
      refine ⟨⟨rfl, pages_of_size whole, data_zeros _ _⟩,
        limited_of_size whole limited.maximum (by omega), ?_⟩
      exact Nat.le_trans (Nat.le_add_right _ _) (Nat.le_of_eq size.symm)
    · exact ⟨⟨rfl, rfl⟩, limited, Nat.le_refl _⟩
  | write address data => exact limited.change (checked_write memory address data)
  | store kind address payload => exact limited.change (checked_store memory kind address payload)
  | fill target value length => exact limited.change (checked_fill memory target value length)
  | copy target source length => exact limited.change (checked_copy memory target source length)
  | init target data source length =>
    exact limited.change (checked_init memory target data source length)

theorem limited_ofType (made : ofType? type = some memory) :
    memory.Limited type.initial (min (type.maximum.getD maxPages) maxPages) := by
  unfold ofType? at made
  split at made <;> cases made
  have size := size_of_zeros type.initial (.emptyWithCapacity (type.initial * pageSize))
  refine limited_of_size (size.trans (Nat.zero_add _)) ?_ (Nat.le_max_left _ _)
  cases type.maximum with
  | none => exact (Nat.min_self _).symm
  | some maximum => rfl

theorem Limited.size_le (limited : memory.Limited initial limit) (first : initial ≤ maxPages)
    (most : limit ≤ maxPages) : memory.size ≤ Lowering.maxStaticOffset := by
  have pages := limited.pages
  rw [limited.whole]
  simp only [maxPages, pageSize, Lowering.maxStaticOffset] at *
  omega

end

/-- An access at a static offset traps in both engines, as lowering has it. -/
structure OutOfReach (memory : Memory) (offset : Nat) : Prop where
  load : ∀ kind (base : UInt32),
    memory.load kind (base.toNat + offset) = .error .memoryOutOfBounds
  store : ∀ kind (base : UInt32) payload,
    memory.store kind (base.toNat + offset) payload = .error .memoryOutOfBounds
  interpreted : ∀ (scene : Interpreted.Scene) frame (instr : Instruction) live,
    scene.store.instances[scene.owner]? = some live → live.memory = some memory →
    (∃ kind, instr.operator = .load kind offset) ∨
      (∃ kind, instr.operator = .store kind offset) →
    Interpreted.act scene frame instr = (.error .memoryOutOfBounds, scene)
  lowered : ∀ context emitter operator,
    (∃ kind, operator = .load kind offset) ∨ (∃ kind, operator = .store kind offset) →
    ∃ widths : List Machine.Width, Lowering.operator context emitter operator =
      .ok (Lowering.emitAll emitter (widths.map .pop ++ [.trap .memoryOutOfBounds]))
  compiled : ∀ scene frame, (∀ width, ∃ later,
      Compiled.act scene frame (.pop width) = (.ok (.run frame), later)) ∧
    Compiled.act scene frame (.trap .memoryOutOfBounds) = (.error .memoryOutOfBounds, scene)

theorem outOfReach {memory : Memory} (short : memory.size ≤ Lowering.maxStaticOffset)
    (far : Lowering.maxStaticOffset < offset) : memory.OutOfReach offset := by
  have outside (base width : Nat) : ¬ inBounds memory.bytes (base + offset) width := by
    have size : memory.bytes.size ≤ Lowering.maxStaticOffset := short
    simp only [inBounds, decide_eq_true_iff]
    omega
  have load kind (base : UInt32) :
      memory.load kind (base.toNat + offset) = .error .memoryOutOfBounds := by
    simp [Memory.load, outside]
  have store kind (base : UInt32) payload :
      memory.store kind (base.toNat + offset) payload = .error .memoryOutOfBounds := by
    simp [Memory.store, outside]
  refine ⟨load, store, ?_, ?_, fun _ _ => ⟨fun _ => ⟨_, rfl⟩, rfl⟩⟩
  · rintro _ _ _ live found here (⟨kind, same⟩ | ⟨kind, same⟩)
    · simp [Interpreted.act, same, Interpreted.reading, Store.look, found, Instance.readMemory,
        here,
        load, Except.map]
    · have refused base payload : Instance.changeMemory
          (Memory.store · kind (UInt32.toNat base + offset) payload) live =
            (.error .memoryOutOfBounds, live) := by
        obtain ⟨_, _⟩ := live
        cases here
        simp only [Instance.changeMemory, store]
      simp only [Interpreted.act, same, Interpreted.changing, Store.access_eq found, refused,
        Store.put_self found]
  · rintro _ _ operator (⟨kind, rfl⟩ | ⟨kind, rfl⟩)
    · exact ⟨[.one], by simp [Lowering.operator, Lowering.load, Nat.not_le.mpr far,
        Lowering.emitAll]⟩
    · exact ⟨[Lowering.widthOf kind.operand, .one], by
        simp [Lowering.operator, Lowering.store, Nat.not_le.mpr far, Lowering.emitAll]⟩

/-- Whatever is done to a memory, it has whole pages within its limit, every further access answers
by its rule and takes no page away, and static offsets beyond the largest stay out of reach. -/
theorem accesses_keep_limit {type : MemoryType} {memory : Memory}
    (made : ofType? type = some memory) (accesses : List Access) :
    let limit := min (type.maximum.getD maxPages) maxPages
    let reached := accesses.foldl (fun memory access => (access.perform memory).2) memory
    reached.size = reached.pages * pageSize ∧ reached.pages ≤ max type.initial limit ∧
      (∀ access : Access, access.Answers limit reached (access.perform reached).1
        (access.perform reached).2 ∧ reached.size ≤ (access.perform reached).2.size) ∧
      ∀ offset, Lowering.maxStaticOffset < offset → reached.OutOfReach offset := by
  intro limit reached
  have limited : reached.Limited type.initial limit :=
    List.foldlRecOn accesses _ (limited_ofType made) fun _ kept access _ =>
      (kept.perform access).2.1
  refine ⟨limited.whole, limited.pages, fun access => ?_, fun offset => outOfReach ?_⟩
  · exact ⟨(limited.perform access).1, (limited.perform access).2.2⟩
  · refine limited.size_le ?_ (Nat.min_le_right _ _)
    unfold ofType? at made
    split at made <;> cases made
    omega

theorem accesses_keep_limit_twoPages :
    ∃ memory reached, ofType? ⟨1, some 2⟩ = some memory ∧
      reached = ((Access.fill 65536 7 3).perform (memory.grow 1).2).2 ∧
      reached.pages ≤ 2 ∧ reached.OutOfReach (2 ^ 31) := by
  obtain ⟨memory, made⟩ : ∃ memory, ofType? ⟨1, some 2⟩ = some memory := ⟨_, rfl⟩
  obtain ⟨_, pages, _, far⟩ := accesses_keep_limit made [.grow 1, .fill 65536 7 3]
  exact ⟨memory, _, made, rfl, pages, far _ (by decide)⟩

end TwinEngine.Memory
