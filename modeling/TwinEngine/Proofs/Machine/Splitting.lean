import TwinEngine.Proofs.Machine.Loading
import TwinEngine.Proofs.Machine.PrefixCode

/-!
Contract: loading is exact and loses nothing.

Owns: the split of bytes into instructions, jumps that land on instructions, that a unit loads
exactly if its bytes have the one and its jumps are the other, and that the bytes can be made again
from what is loaded.
-/

namespace TwinEngine.Machine

variable {bytes : List UInt8} {code : List (Instruction Int32)} {decoded : DecodedCode}

/-- Bytes are instructions one behind the other, with nothing left. -/
def Splits : List UInt8 → List (Instruction Int32) → Prop
  | bytes, [] => bytes = []
  | bytes, instr :: code =>
    ∃ rest, Instruction.decode bytes = some (instr, rest) ∧ Splits rest code

/-- Every jump leads from the start of its own instruction to the start of an instruction. -/
def Lands (code : List (Instruction Int32)) : Prop :=
  ∀ {index : Nat} {instr : Instruction Int32}, code[index]? = some instr →
    ∀ distance ∈ instr.targets, ∃ target < code.length,
      (position code index : Int) + distance.toInt = position code target

/-- Code with byte distances in place of instruction indices. -/
def relative (code : List (Instruction Nat)) : List (Instruction Int32) :=
  code.mapIdx fun index instr => instr.retarget fun target =>
    Int32.ofInt ((position code target : Int) - position code index)

/-! ## Splits -/

theorem splits_iff :
    Splits bytes code ↔ bytes = code.flatMap Instruction.encode ∧
      ∀ instr ∈ code, instr.Encodable := by
  induction code generalizing bytes with
  | nil => simp [Splits]
  | cons instr code ih =>
    constructor
    · rintro ⟨_, read, splits⟩
      obtain ⟨rfl, small⟩ := Instruction.takes_decode read
      obtain ⟨rfl, others⟩ := ih.mp splits
      exact ⟨List.flatMap_cons.symm, List.forall_mem_cons.mpr ⟨small, others⟩⟩
    · rintro ⟨rfl, small⟩
      obtain ⟨small, others⟩ := List.forall_mem_cons.mp small
      exact ⟨_, instr.decode_encode small _, ih.mpr ⟨rfl, others⟩⟩

theorem Splits.unique (splits : Splits bytes code) (also : Splits bytes other) : code = other := by
  induction code generalizing bytes other with
  | nil =>
    cases other with
    | nil => rfl
    | cons instr other =>
      obtain ⟨_, read, _⟩ := also
      rw [show bytes = [] from splits] at read
      cases read
  | cons instr code ih =>
    obtain ⟨_, read, splits⟩ := splits
    cases other with
    | nil =>
      rw [show bytes = [] from also] at read
      cases read
    | cons _ other =>
      obtain ⟨_, read', also⟩ := also
      cases read.symm.trans read'
      rw [ih splits also]

theorem exists_splits_of_decodeFrom (ran : DecodedCode.decodeFrom fuel bytes decoded = .ok final) :
    ∃ code, Splits bytes code := by
  fun_induction DecodedCode.decodeFrom fuel bytes decoded with
  | case1 => exact ⟨[], rfl⟩
  | case2 | case3 => cases ran
  | case4 _ _ _ _ instr rest read ih =>
    obtain ⟨code, splits⟩ := ih ran
    exact ⟨instr :: code, rest, read, splits⟩

theorem Splits.exists_decodeAll (splits : Splits bytes code) :
    ∃ decoded, DecodedCode.decodeAll bytes = .ok decoded ∧ Decodes code code.length decoded := by
  obtain ⟨rfl, small⟩ := splits_iff.mp splits
  exact decodeFrom_eq_ok small _ (Nat.zero_le _) List.drop_zero (decodes_empty _) (Nat.le_refl _)

/-! ## Jumps -/

variable {unit : CodeUnit} {loaded : LoadedUnit}

/-- Every jump lands on an instruction whose index fits an operand. -/
def LandsNear (code : List (Instruction Int32)) : Prop :=
  ∀ {index : Nat} {instr : Instruction Int32}, code[index]? = some instr →
    ∀ distance ∈ instr.targets, ∃ target, (target < code.length ∧
      (position code index : Int) + distance.toInt = position code target) ∧ target < 2 ^ 31

theorem LandsNear.lands (near : LandsNear code) : Lands code := fun found distance member =>
  (near found distance member).imp fun _ landed => landed.1

theorem Splits.landsNear (splits : Splits bytes code) (short : bytes.length < 2 ^ 31)
    (lands : Lands code) : LandsNear code := by
  intro index instr found distance member
  obtain ⟨target, inside, landed⟩ := lands found distance member
  refine ⟨target, ⟨inside, landed⟩, ?_⟩
  rw [(splits_iff.mp splits).1, length_flatMap_encode] at short
  have := le_position code (Nat.le_refl code.length)
  omega

/-- Jumps that land become the indices that they lead to. -/
theorem load_of_lands (splits : Splits unit.bytes code) (lands : LandsNear code) :
    ∃ target : Nat → Int32 → Nat,
      (∀ {index instr}, code[index]? = some instr →
        ∀ distance ∈ instr.targets,
          (position code index : Int) + distance.toInt = position code (target index distance)) ∧
      unit.load = .ok
        { function := unit.function
          code := (code.mapIdx fun index instr => instr.retarget (target index)).toArray
          signature := unit.signature
          localSlots := unit.localSlots
          maxStack := unit.maxStack
          signatures := unit.signatures } := by
  obtain ⟨decoded, ran, decodes⟩ := splits.exists_decodeAll
  let target (index : Nat) (distance : Int32) : Nat :=
    (decoded.resolve (position code index) distance).toOption.getD 0
  have resolves {index : Nat} {instr : Instruction Int32}
      (found : code[index]? = some instr) (distance : Int32)
      (member : distance ∈ instr.targets) :
      decoded.resolve (position code index) distance = .ok (target index distance) := by
    obtain ⟨_, landed⟩ := lands found distance member
    have resolved := decodes.resolve_eq_ok_iff.mpr landed
    simp only [target, resolved]
    rfl
  have all : decoded.resolveAll = .ok
      (code.mapIdx fun index instr => instr.retarget (target index)).toArray := by
    refine decodes.resolveAll_eq_ok_iff.mpr fun index => ?_
    rw [List.getElem?_mapIdx]
    cases found : code[index]? with
    | none => rfl
    | some => simp only [Option.map_some, Instruction.mapTargets_eq_ok (resolves found)]
  refine ⟨target, fun found distance member =>
    (decodes.resolve_eq_ok_iff.mp (resolves found distance member)).1.2, ?_⟩
  rw [CodeUnit.load, ran]
  simp only [all]

theorem lands_of_load (done : unit.load = .ok loaded) :
    ∃ code, Splits unit.bytes code ∧ LandsNear code := by
  unfold CodeUnit.load at done
  split at done
  · cases done
  · rename_i ran
    split at done
    · cases done
    · rename_i indices resolved
      obtain ⟨code, splits⟩ := exists_splits_of_decodeFrom ran
      obtain ⟨_, also, decodes⟩ := splits.exists_decodeAll
      cases ran.symm.trans also
      refine ⟨code, splits, fun found distance member => ?_⟩
      have each := (@Decodes.resolveAll_eq_ok_iff _ _ decodes indices.toList).mp resolved
      obtain ⟨_, _, mapped⟩ := Option.map_eq_some_iff.mp ((each _).trans (congrArg _ found))
      obtain ⟨target, landed⟩ := Instruction.ok_of_mapTargets mapped.symm distance member
      exact ⟨target, decodes.resolve_eq_ok_iff.mp landed⟩

theorem verification_of_load {failure : Error} (failed : unit.load = .error failure) :
    ∃ fault, failure = .verification unit.function fault := by
  unfold CodeUnit.load at failed
  split at failed
  · cases failed
    exact ⟨_, rfl⟩
  · split at failed <;> cases failed
    exact ⟨_, rfl⟩

theorem relative_mapIdx {target : Nat → Int32 → Nat}
    (leads : ∀ {index instr}, code[index]? = some instr →
      ∀ distance ∈ instr.targets,
        (position code index : Int) + distance.toInt = position code (target index distance)) :
    relative (code.mapIdx fun index instr => instr.retarget (target index)) = code := by
  apply List.ext_getElem?
  intro index
  rw [relative, List.getElem?_mapIdx, List.getElem?_mapIdx, Option.map_map]
  cases found : code[index]? with
  | none => rfl
  | some instr =>
    simp only [Option.map_some, Function.comp_apply, Instruction.retarget_retarget,
      position_mapIdx_retarget, Option.some.injEq]
    refine .trans (Instruction.retarget_congr fun distance member => ?_) instr.retarget_id
    rw [Function.comp_apply, ← leads found distance member, Int.add_comm,
      Int.add_sub_cancel, Int32.ofInt_toInt, id]

theorem encode_relative_of_load (done : unit.load = .ok loaded) :
    (relative loaded.code.toList).flatMap Instruction.encode = unit.bytes := by
  obtain ⟨code, splits, lands⟩ := lands_of_load done
  obtain ⟨_, leads, made⟩ := load_of_lands splits lands
  cases done.symm.trans made
  rw [relative_mapIdx leads, (splits_iff.mp splits).1]

/-- Loading is exact and loses nothing. A unit of fewer than 2^31 bytes loads exactly if its bytes
split into instructions with nothing left and every jump, taken from the start of its own
instruction, lands on the start of one. There is one such split, and the bytes are again those of
the loaded instructions once each operand of a jump is the distance to the instruction that it
names. Otherwise the unit fails the check. -/
theorem load_exact (unit : CodeUnit) :
    (unit.bytes.length < 2 ^ 31 →
      ((∃ loaded, unit.load = .ok loaded) ↔ ∃ code, Splits unit.bytes code ∧ Lands code)) ∧
    (∀ {code other : List (Instruction Int32)},
      Splits unit.bytes code → Splits unit.bytes other → code = other) ∧
    (∀ {loaded : LoadedUnit}, unit.load = .ok loaded →
      (relative loaded.code.toList).flatMap Instruction.encode = unit.bytes) ∧
    ∀ {failure : Error}, unit.load = .error failure →
      ∃ fault, failure = .verification unit.function fault := by
  refine ⟨fun short => ⟨?_, ?_⟩, Splits.unique, encode_relative_of_load, verification_of_load⟩
  · rintro ⟨_, done⟩
    obtain ⟨code, splits, near⟩ := lands_of_load done
    exact ⟨code, splits, near.lands⟩
  · rintro ⟨_, splits, lands⟩
    obtain ⟨_, _, done⟩ := load_of_lands splits (splits.landsNear short lands)
    exact ⟨_, done⟩

/-- A poll with a jump back to it, and the same bytes without the last. -/
def pollingUnit (length : Nat) : CodeUnit :=
  { function := 0
    bytes := ((Instruction.plain .checkInterrupt).encode ++
      (Instruction.jump .always (-1)).encode).take
      length
    signature := ⟨[], []⟩
    localSlots := 0
    maxStack := 0
    signatures := #[] }

theorem load_exact_polling :
    (∃ loaded, (pollingUnit 6).load = .ok loaded ∧
      loaded.code = #[.plain .checkInterrupt, .jump .always 0] ∧
      (relative loaded.code.toList).flatMap Instruction.encode = (pollingUnit 6).bytes) ∧
    (∀ code, Splits (pollingUnit 6).bytes code →
      [.plain .checkInterrupt, .jump .always (-1)] = code) ∧
    ∃ failure, (pollingUnit 5).load = .error failure ∧
      ∃ fault, failure = .verification 0 fault := by
  have failed : (pollingUnit 5).load = .error (.verification 0 (.undecodable 1)) := rfl
  refine ⟨?_, fun code => (load_exact (pollingUnit 6)).2.1 ⟨_, rfl, _, rfl, rfl⟩,
    _, failed, (load_exact (pollingUnit 5)).2.2.2 failed⟩
  obtain ⟨loaded, done, code⟩ := exists_ok (pollingUnit 6).load
    (fun loaded => loaded.code = #[.plain .checkInterrupt, .jump .always 0]) (by decide +kernel)
  exact ⟨loaded, done, code, (load_exact (pollingUnit 6)).2.2.1 done⟩

end TwinEngine.Machine
