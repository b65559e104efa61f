import TwinEngine.Proofs.Machine.Codec

/-!
Contract: the encoding of machine instructions is a canonical prefix code.

Owns:
- readers that take exactly what a writer wrote, and that operand readers do;
- that an opcode byte and a one-byte code have one preimage;
- that a decoded instruction is encoded by the very bytes that were read.

Does not own: that decoding undoes encoding (`Proofs.Machine.Codec`).
-/

namespace TwinEngine.Machine

open Option

/-! ## Operand readers -/

def Takes {α : Type} (reader : OperandReader α) (written : α → List UInt8) : Prop :=
  ∀ {bytes value rest}, reader bytes = some (value, rest) → bytes = written value ++ rest

theorem readLittleEndian_takes (read : readLittleEndian count bytes = some (value, rest)) :
    bytes = littleEndian count value ++ rest ∧ value < 256 ^ count := by
  induction count generalizing bytes value with
  | zero =>
    obtain ⟨rfl, rfl⟩ : 0 = value ∧ bytes = rest := by simpa [readLittleEndian] using read
    exact ⟨rfl, by decide⟩
  | succ count ih =>
    cases bytes with
    | nil => simp [readLittleEndian] at read
    | cons byte bytes =>
      rw [readLittleEndian] at read
      split at read
      · next high after higher =>
          obtain ⟨rfl, rfl⟩ : byte.toNat + 256 * high = value ∧ after = rest := by
            simpa using read
          obtain ⟨rfl, _⟩ := ih higher
          have low : byte.toNat < 256 := byte.toNat_lt
          refine ⟨?_, by rw [Nat.pow_succ']; omega⟩
          have shifted : (byte.toNat + 256 * high) / 256 = high := by omega
          have lowest : UInt8.ofNat (byte.toNat + 256 * high) = byte := by
            apply UInt8.toNat_inj.mp
            rw [UInt8.toNat_ofNat']
            omega
          simp [littleEndian, shifted, lowest]
      · simp at read

variable {α : Type} {opcode : Opcode} {code : UInt8} {bytes rest : List UInt8}

theorem takes_word {ofNat : Nat → α} {toNat : α → Nat}
    (exact : ∀ number < 256 ^ count, toNat (ofNat number) = number) :
    Takes (fun bytes => (readLittleEndian count bytes).map fun read => (ofNat read.1, read.2))
      fun value => littleEndian count (toNat value) := by
  intro bytes value rest read
  obtain ⟨⟨number, after⟩, taken, same⟩ := map_eq_some_iff.mp read
  obtain ⟨rfl, rfl⟩ : ofNat number = value ∧ after = rest := by simpa using same
  obtain ⟨rfl, small⟩ := readLittleEndian_takes taken
  simp only [exact number small]

theorem takes_read16 : Takes read16 bytes16 := takes_word fun _ => UInt16.toNat_ofNat_of_lt

theorem takes_read32 : Takes read32 bytes32 := takes_word fun _ => UInt32.toNat_ofNat_of_lt

theorem takes_read64 : Takes read64 bytes64 := takes_word fun _ => UInt64.toNat_ofNat_of_lt

theorem takes_read8 : Takes read8 fun byte => [byte] := by
  intro bytes value rest read
  cases bytes with
  | nil => simp [read8] at read
  | cons byte bytes =>
    obtain ⟨rfl, rfl⟩ : byte = value ∧ bytes = rest := by simpa [read8] using read
    rfl

theorem takes_readTrapCode : Takes readTrapCode fun code => [code.byte] := by
  intro _ code rest read
  unfold readTrapCode at read
  split at read
  · obtain ⟨rfl, rfl⟩ : TrapCode.unreachable = code ∧ _ = rest := by simpa using read
    rfl
  · obtain ⟨rfl, rfl⟩ : TrapCode.memoryOutOfBounds = code ∧ _ = rest := by simpa using read
    rfl
  · simp at read

theorem takes_readDistance : Takes readDistance fun distance => bytes32 distance.toUInt32 := by
  intro _ distance rest read
  obtain ⟨⟨value, after⟩, taken, same⟩ := map_eq_some_iff.mp read
  obtain ⟨rfl, rfl⟩ : value.toInt32 = distance ∧ after = rest := by simpa using same
  simpa using takes_read32 taken

theorem takes_readDistances (read : readDistances count bytes = some (distances, rest)) :
    distances.length = count ∧
      bytes = (distances.flatMap fun distance => bytes32 distance.toUInt32) ++ rest := by
  induction count generalizing bytes distances with
  | zero =>
    obtain ⟨rfl, rfl⟩ : [] = distances ∧ bytes = rest := by simpa [readDistances] using read
    exact ⟨rfl, rfl⟩
  | succ count ih =>
    obtain ⟨⟨distance, _⟩, first, read⟩ := bind_eq_some_iff.mp read
    obtain ⟨⟨others, after⟩, second, same⟩ := bind_eq_some_iff.mp read
    obtain ⟨rfl, rfl⟩ : distance :: others = distances ∧ after = rest := by simpa using same
    obtain ⟨rfl, rfl⟩ := ih second
    refine ⟨rfl, ?_⟩
    rw [takes_readDistance first, List.flatMap_cons, List.append_assoc]

theorem Takes.of_readAs {β : Type} {reader : OperandReader α} {written : α → List UInt8}
    (takes : Takes reader written) {build : α → β} {value : β}
    (read : readAs reader build bytes = some (value, rest)) :
    ∃ operand, value = build operand ∧ bytes = written operand ++ rest := by
  obtain ⟨⟨operand, after⟩, taken, same⟩ := map_eq_some_iff.mp read
  obtain ⟨rfl, rfl⟩ : build operand = value ∧ after = rest := by simpa using same
  exact ⟨operand, rfl, takes taken⟩

/-! ## Codes -/

theorem Opcode.byte_of_ofByte? {byte : UInt8} (found : Opcode.ofByte? byte = some opcode) :
    opcode.byte = byte := by
  have matching := List.find?_some found
  simpa using matching

/-- In a table without repetitions of at most 256 entries, a place is the code of its entry. -/
theorem codeOf_of_getElem? [DecidableEq α] {table : List α} (different : table.Nodup)
    (found : table[code.toNat]? = some entry) : UInt8.ofNat (table.idxOf entry) = code := by
  obtain ⟨_, rfl⟩ := List.getElem?_eq_some_iff.mp found
  rw [different.idxOf_getElem, UInt8.ofNat_toNat]

theorem LoadKind.code_of_ofCode? {kind : LoadKind} (found : LoadKind.ofCode? code = some kind) :
    kind.code = code :=
  codeOf_of_getElem? (by decide) found

theorem StoreKind.code_of_ofCode? {kind : StoreKind} (found : StoreKind.ofCode? code = some kind) :
    kind.code = code :=
  codeOf_of_getElem? (by decide) found

theorem code_of_ofCode? {operator : Numeric.Operator}
    (found : Numeric.Operator.ofCode? code = some operator) : operator.code = code :=
  codeOf_of_getElem? (by decide +kernel) found

/-! ## Instructions -/

theorem Action.takes_decodeOperands {action : Action}
    (read : Action.decodeOperands opcode bytes = some (action, rest)) :
    action.opcode = opcode ∧ bytes = action.operands ++ rest := by
  cases opcode with
  | trap =>
    obtain ⟨code, rfl, rfl⟩ := takes_readTrapCode.of_readAs read
    exact ⟨rfl, rfl⟩
  | const width =>
    cases width with
    | one =>
      obtain ⟨bits, rfl, rfl⟩ := takes_read32.of_readAs read
      exact ⟨rfl, rfl⟩
    | two =>
      obtain ⟨bits, rfl, rfl⟩ := takes_read64.of_readAs read
      exact ⟨rfl, rfl⟩
  | load | store | leave | box | unbox =>
    obtain ⟨_, rfl, rfl⟩ := takes_read16.of_readAs read
    exact ⟨rfl, rfl⟩
  | dropKeep =>
    obtain ⟨⟨drop, middle⟩, first, read⟩ := bind_eq_some_iff.mp read
    obtain ⟨⟨keep, after⟩, second, same⟩ := bind_eq_some_iff.mp read
    obtain ⟨rfl, rfl⟩ : Action.dropKeep drop keep = action ∧ after = rest := by simpa using same
    refine ⟨rfl, ?_⟩
    rw [takes_read16 first, takes_read16 second, Action.operands, List.append_assoc]
  | jump | switch => simp [decodeOperands] at read
  | numeric =>
    obtain ⟨⟨code, middle⟩, first, read⟩ := bind_eq_some_iff.mp read
    obtain ⟨operator, found, same⟩ := bind_eq_some_iff.mp read
    obtain ⟨rfl, rfl⟩ : Action.numeric operator = action ∧ middle = rest := by simpa using same
    refine ⟨rfl, ?_⟩
    rw [takes_read8 first, Action.operands, code_of_ofCode? found]
  | memLoad =>
    obtain ⟨⟨code, middle⟩, first, read⟩ := bind_eq_some_iff.mp read
    obtain ⟨kind, found, read⟩ := bind_eq_some_iff.mp read
    obtain ⟨offset, rfl, rfl⟩ := takes_read32.of_readAs read
    refine ⟨rfl, ?_⟩
    rw [takes_read8 first, Action.operands, LoadKind.code_of_ofCode? found]
    rfl
  | memStore =>
    obtain ⟨⟨code, middle⟩, first, read⟩ := bind_eq_some_iff.mp read
    obtain ⟨kind, found, read⟩ := bind_eq_some_iff.mp read
    obtain ⟨offset, rfl, rfl⟩ := takes_read32.of_readAs read
    refine ⟨rfl, ?_⟩
    rw [takes_read8 first, Action.operands, StoreKind.code_of_ofCode? found]
    rfl
  | memoryInit | dataDrop | globalGet | globalSet | tableGet | tableSet | tableSize | tableGrow
  | tableFill | elementDrop | refFunc =>
    obtain ⟨index, rfl, rfl⟩ := takes_read32.of_readAs read
    exact ⟨rfl, rfl⟩
  | tableCopy | tableInit =>
    obtain ⟨⟨index, middle⟩, first, read⟩ := bind_eq_some_iff.mp read
    obtain ⟨_, rfl, rfl⟩ := takes_read32.of_readAs read
    refine ⟨rfl, ?_⟩
    rw [takes_read32 first, Action.operands, List.append_assoc]
  | call =>
    obtain ⟨⟨_, middle⟩, first, read⟩ := bind_eq_some_iff.mp read
    obtain ⟨signature, rfl, rfl⟩ := takes_read16.of_readAs read
    refine ⟨rfl, ?_⟩
    rw [takes_read32 first, Action.operands, List.append_assoc]
  | callIndirect =>
    obtain ⟨⟨_, _⟩, first, read⟩ := bind_eq_some_iff.mp read
    obtain ⟨⟨_, middle⟩, second, read⟩ := bind_eq_some_iff.mp read
    obtain ⟨signature, rfl, rfl⟩ := takes_read16.of_readAs read
    refine ⟨rfl, ?_⟩
    rw [takes_read32 first, takes_read32 second, Action.operands, List.append_assoc,
      List.append_assoc]
  | checkInterrupt | pop | dup | select | memorySize | memoryGrow | memoryFill | memoryCopy
  | refIsNull =>
    obtain ⟨rfl, rfl⟩ : _ = action ∧ bytes = rest := by simpa [decodeOperands] using read
    exact ⟨rfl, rfl⟩

namespace Instruction

theorem decodeOperands_plain (plain : opcode.branches = false) (bytes : List UInt8) :
    decodeOperands opcode bytes = readAs (Action.decodeOperands opcode) .plain bytes := by
  cases opcode <;> first | rfl | simp [Opcode.branches] at plain

theorem takes_decodeOperands {instr : Instruction Int32}
    (read : decodeOperands opcode bytes = some (instr, rest)) :
    instr.opcode = opcode ∧ bytes = instr.operands ++ rest ∧ instr.Encodable := by
  cases branching : opcode.branches with
  | false =>
    rw [decodeOperands_plain branching] at read
    obtain ⟨⟨action, after⟩, taken, same⟩ := map_eq_some_iff.mp read
    obtain ⟨rfl, rfl⟩ : Instruction.plain action = instr ∧ after = rest := by
      simpa using same
    obtain ⟨rfl, rfl⟩ := Action.takes_decodeOperands taken
    exact ⟨rfl, rfl, Nat.zero_le _⟩
  | true =>
    cases opcode with
    | jump =>
      obtain ⟨_, rfl, rfl⟩ := takes_readDistance.of_readAs read
      exact ⟨rfl, rfl, by simp [Encodable, targets]⟩
    | switch =>
      obtain ⟨⟨count, _⟩, first, read⟩ := bind_eq_some_iff.mp read
      obtain ⟨⟨distances, after⟩, second, same⟩ := map_eq_some_iff.mp read
      obtain ⟨rfl, rfl⟩ : Instruction.switch distances = instr ∧ after = rest := by
        simpa using same
      obtain ⟨length, rfl⟩ := takes_readDistances second
      refine ⟨rfl, ?_, ?_⟩
      · rw [takes_read16 first, operands, length, UInt16.ofNat_toNat, List.append_assoc]
      · have := count.toNat_lt
        simp only [Encodable, targets, length]
        omega
    | _ => simp [Opcode.branches] at branching

theorem takes_decode (read : decode bytes = some (instr, rest)) :
    bytes = instr.encode ++ rest ∧ instr.Encodable := by
  cases bytes with
  | nil => simp [decode] at read
  | cons _ bytes =>
    obtain ⟨_, found, read⟩ := bind_eq_some_iff.mp read
    obtain ⟨rfl, rfl, small⟩ := takes_decodeOperands read
    refine ⟨?_, small⟩
    rw [encode, Opcode.byte_of_ofByte? found, List.cons_append]

end Instruction

end TwinEngine.Machine
