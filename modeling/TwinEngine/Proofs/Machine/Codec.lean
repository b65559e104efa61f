import TwinEngine.Machine.Codec

/-!
Contract: machine instructions and their bytes.

Owns: that reading an operand gives what was written, that decoding gives back an instruction and
the bytes behind it, and the lengths of encodings.

A switch has room for 65535 targets.
-/

namespace TwinEngine.Machine

/-! ## Operands -/

theorem length_littleEndian (count value : Nat) : (littleEndian count value).length = count := by
  induction count generalizing value with
  | zero => rfl
  | succ count ih => simp [littleEndian, ih]

theorem readLittleEndian_append (count value : Nat) (rest : List UInt8) :
    readLittleEndian count (littleEndian count value ++ rest) =
      some (value % 256 ^ count, rest) := by
  induction count generalizing value with
  | zero => simp [littleEndian, readLittleEndian, Nat.mod_one]
  | succ count ih =>
    have low : (UInt8.ofNat value).toNat = value % 256 := by simp
    simp only [littleEndian, List.cons_append, readLittleEndian, ih, low]
    rw [Nat.pow_succ', Nat.mod_mul]

theorem read16_append (value : UInt16) (rest : List UInt8) :
    read16 (bytes16 value ++ rest) = some (value, rest) := by
  have small : value.toNat % 256 ^ 2 = value.toNat := Nat.mod_eq_of_lt value.toNat_lt
  simp [read16, bytes16, readLittleEndian_append, small]

theorem read32_append (value : UInt32) (rest : List UInt8) :
    read32 (bytes32 value ++ rest) = some (value, rest) := by
  have small : value.toNat % 256 ^ 4 = value.toNat := Nat.mod_eq_of_lt value.toNat_lt
  simp [read32, bytes32, readLittleEndian_append, small]

theorem read64_append (value : UInt64) (rest : List UInt8) :
    read64 (bytes64 value ++ rest) = some (value, rest) := by
  have small : value.toNat % 256 ^ 8 = value.toNat := Nat.mod_eq_of_lt value.toNat_lt
  simp [read64, bytes64, readLittleEndian_append, small]

theorem readDistance_append (distance : Int32) (rest : List UInt8) :
    readDistance (bytes32 distance.toUInt32 ++ rest) = some (distance, rest) := by
  simp [readDistance, read32_append]

theorem readDistances_append (distances : List Int32) (rest : List UInt8) :
    readDistances distances.length
        ((distances.flatMap fun distance => bytes32 distance.toUInt32) ++ rest) =
      some (distances, rest) := by
  induction distances with
  | nil => rfl
  | cons distance distances ih => simp [readDistances, readDistance_append, ih]

/-! ## Codes -/

theorem Opcode.ofByte?_byte (opcode : Opcode) : Opcode.ofByte? opcode.byte = some opcode := by
  cases opcode <;> first | rfl | (rename_i operand; cases operand <;> rfl)

/-- A code that is a place in a table of at most 256 entries leads back to its entry. -/
theorem getElem?_codeOf {α : Type} [DecidableEq α] {table : List α} {entry : α}
    (listed : entry ∈ table) (short : table.length ≤ 256) :
    table[(UInt8.ofNat (table.idxOf entry)).toNat]? = some entry := by
  have inside := List.idxOf_lt_length_of_mem listed
  have small : (UInt8.ofNat (table.idxOf entry)).toNat = table.idxOf entry := by
    rw [UInt8.toNat_ofNat']
    omega
  rw [small, List.getElem?_eq_getElem inside, List.getElem_idxOf]

theorem mem_allLoads (kind : LoadKind) : kind ∈ LoadKind.all := by
  cases kind <;> first | decide | (rename_i sign; cases sign <;> decide)

theorem mem_allStores (kind : StoreKind) : kind ∈ StoreKind.all := by
  cases kind <;> decide

open Numeric.Operator in
theorem mem_allNumeric (operator : Numeric.Operator) : operator ∈ Numeric.Operator.all := by
  cases operator with
  | compareInt width comparison =>
    rcases comparison with _ | _ | ⟨_ | _⟩ | ⟨_ | _⟩ | ⟨_ | _⟩ | ⟨_ | _⟩ <;> cases width <;> decide
  | binaryInt width operation =>
    rcases operation with _ | _ | _ | ⟨_ | _⟩ | ⟨_ | _⟩ | _ | _ | _ | _ | ⟨_ | _⟩ | _ | _ <;>
      cases width <;> decide
  | unaryFloat width operation =>
    rcases operation with _ | _ | ⟨_ | _ | _ | _⟩ | _ <;> cases width <;> decide
  | compareFloat width what | count width what | binaryFloat width what =>
    cases what <;> cases width <;> decide
  | truncate target origin sign | saturate target origin sign | convert target origin sign =>
    cases target <;> cases origin <;> cases sign <;> decide
  | eqz what | extend what | bitsOfFloat what | floatOfBits what | extend8 what | extend16 what =>
    cases what <;> decide
  | wrap | demote | promote | extend32 => decide

theorem LoadKind.ofCode?_code (kind : LoadKind) : LoadKind.ofCode? kind.code = some kind :=
  getElem?_codeOf (mem_allLoads kind) (by decide)

theorem StoreKind.ofCode?_code (kind : StoreKind) : StoreKind.ofCode? kind.code = some kind :=
  getElem?_codeOf (mem_allStores kind) (by decide)

theorem ofCode?_code (operator : Numeric.Operator) :
    Numeric.Operator.ofCode? operator.code = some operator :=
  getElem?_codeOf (mem_allNumeric operator) (by decide +kernel)

/-! ## Instructions -/

theorem Action.decodeOperands_append (action : Action) (rest : List UInt8) :
    Action.decodeOperands action.opcode (action.operands ++ rest) = some (action, rest) := by
  cases action with
  | trap code => cases code <;> rfl
  | numeric => simp [Action.opcode, Action.operands, decodeOperands, read8, ofCode?_code]
  | memLoad kind offset =>
    simp [Action.opcode, Action.operands, decodeOperands, read8, LoadKind.ofCode?_code, readAs,
      read32_append]
  | memStore kind offset =>
    simp [Action.opcode, Action.operands, decodeOperands, read8, StoreKind.ofCode?_code, readAs,
      read32_append]
  | _ =>
    simp [Action.opcode, Action.operands, decodeOperands, readAs, read16_append, read32_append,
      read64_append]

namespace Instruction

def Encodable {τ : Type} (instr : Instruction τ) : Prop := instr.targets.length ≤ 65535

/-- Decoding gives back an instruction and the bytes behind it. -/
theorem decode_encode (instr : Instruction Int32) (small : instr.Encodable)
    (rest : List UInt8) : decode (instr.encode ++ rest) = some (instr, rest) := by
  have opcode : Opcode.ofByte? instr.opcode.byte = some instr.opcode :=
    Opcode.ofByte?_byte _
  have operands : decodeOperands instr.opcode (instr.operands ++ rest) =
      some (instr, rest) := by
    cases instr with
    | plain action =>
      have read : readAs (Action.decodeOperands action.opcode)
          (Instruction.plain : Action → Instruction Int32) (action.operands ++ rest) =
            some (.plain action, rest) := by
        simp [readAs, Action.decodeOperands_append]
      cases action <;> exact read
    | jump =>
      simp [Instruction.opcode, decodeOperands, Instruction.operands, readAs, readDistance_append]
    | switch distances =>
      have count : (UInt16.ofNat distances.length).toNat = distances.length := by
        rw [UInt16.toNat_ofNat']
        have : distances.length ≤ 65535 := small
        omega
      have read := readDistances_append distances rest
      simp [Instruction.opcode, decodeOperands, Instruction.operands, readAs, read16_append, count,
        read]
  simp [encode, decode, opcode, operands]

theorem length_encode (instr : Instruction Int32) : instr.encode.length = instr.encodedLength := by
  cases instr with
  | plain action =>
    cases action <;>
      simp [encode, operands, Action.operands, encodedLength, Action.operandLength, bytes16,
        bytes32, bytes64, length_littleEndian]
  | jump _ distance => simp [encode, operands, encodedLength, bytes32, length_littleEndian]
  | switch distances =>
    have each : (distances.flatMap fun distance => bytes32 distance.toUInt32).length =
        4 * distances.length := by
      induction distances with
      | nil => rfl
      | cons distance distances ih =>
        rw [List.flatMap_cons, List.length_append, ih, bytes32,
          length_littleEndian, List.length_cons]
        omega
    simp only [encode, operands, encodedLength, List.length_cons, List.length_append, each, bytes16,
      length_littleEndian]
    omega

end Instruction

end TwinEngine.Machine
