import TwinEngine.Machine.Emitter
import TwinEngine.Proofs.Machine.Codec
import TwinEngine.Proofs.Outcome

/-!
Contract: what becomes of labelled code when a unit is finished and loaded.

Owns: the byte positions of instructions, the resolution of labels to distances and of distances to
instruction indices, and that the two lead from a label to the instruction behind it.

A distance is a number of 32 bits, for which code of fewer than 2^31 bytes is always near enough.
-/

namespace TwinEngine.Machine

open TwinEngine.Machine.Instruction
open Emitter (distanceTo encodeAll finish offsets)
open List (drop_drop drop_eq_nil_iff drop_zero map_take mem_cons_self mem_of_getElem?)

theorem cons_of_drop {α : Type} {items rest : List α} {first : α}
    (split : items.drop index = first :: rest) :
    items[index]? = some first ∧ items.drop (index + 1) = rest := by
  rw [← List.head?_drop, ← drop_drop, split]
  exact ⟨rfl, rfl⟩

namespace Instruction

variable {τ σ ρ : Type}

@[simp] theorem encodedLength_retarget (f : τ → σ) (instr : Instruction τ) :
    (instr.retarget f).encodedLength = instr.encodedLength := by
  cases instr <;> simp [retarget, encodedLength]

@[simp] theorem targets_retarget (f : τ → σ) (instr : Instruction τ) :
    (instr.retarget f).targets = instr.targets.map f := by
  cases instr <;> simp [retarget, targets]

@[simp] theorem retarget_retarget (f : τ → σ) (g : σ → ρ) (instr : Instruction τ) :
    (instr.retarget f).retarget g = instr.retarget (g ∘ f) := by
  cases instr <;> simp [retarget]

@[simp] theorem retarget_id (instr : Instruction τ) : instr.retarget id = instr := by
  cases instr <;> simp [retarget]

variable {g : τ → σ} {instr : Instruction τ} {f : τ → Except ε σ} {ε : Type}

theorem retarget_congr {f : τ → σ} (same : ∀ target ∈ instr.targets, f target = g target) :
    instr.retarget f = instr.retarget g := by
  cases instr with
  | plain => rfl
  | jump _ target => simp [retarget, same target mem_cons_self]
  | switch targets => exact congrArg switch (List.map_congr_left same)

theorem encodedLength_pos (instr : Instruction τ) : 0 < instr.encodedLength := by
  cases instr <;> simp only [encodedLength] <;> omega

theorem mapTargets_retarget (f : σ → Except ε ρ) (g : τ → σ) (instr : Instruction τ) :
    (instr.retarget g).mapTargets f = instr.mapTargets (f ∘ g) := by
  cases instr <;> simp [retarget, mapTargets, List.mapM_map]

/-- Replacing jump operands succeeds if it does for each. -/
theorem mapTargets_eq_ok (each : ∀ target ∈ instr.targets, f target = .ok (g target)) :
    instr.mapTargets f = .ok (instr.retarget g) := by
  cases instr with
  | plain => rfl
  | jump _ target => simp [mapTargets, retarget, each target mem_cons_self, Functor.map, Except.map]
  | switch targets =>
    have all : targets.mapM f = .ok (targets.map g) := mapM_eq_ok.mpr <| by
      rw [List.map_map]
      exact List.map_congr_left each
    simp [mapTargets, retarget, all, Functor.map, Except.map]

theorem ok_of_mapTargets (mapped : instr.mapTargets f = .ok replaced) :
    ∀ target ∈ instr.targets, ∃ result, f target = .ok result := by
  intro target member
  cases instr with
  | plain => cases member
  | jump _ only =>
    rw [List.mem_singleton.mp member]
    obtain ⟨result, found, _⟩ := map_eq_ok.mp mapped
    exact ⟨result, found⟩
  | switch targets =>
    obtain ⟨_, all, _⟩ := map_eq_ok.mp mapped
    obtain ⟨_, here⟩ := List.mem_iff_getElem?.mp member
    obtain ⟨result, _, found⟩ := image_of_mapM all here
    exact ⟨result, found⟩

end Instruction

def position {τ : Type} (code : List (Instruction τ)) (index : Nat) : Nat :=
  ((code.take index).map encodedLength).sum

section Position

variable {τ : Type} (code : List (Instruction τ))

theorem position_succ (found : code[index]? = some instr) :
    position code (index + 1) = position code index + instr.encodedLength := by
  rw [position, List.take_add_one, found]
  simp [position]

theorem position_mono (below : index ≤ later) : position code index ≤ position code later := by
  induction below with
  | refl => exact Nat.le_refl _
  | @step later _ ih =>
    refine Nat.le_trans ih ?_
    cases found : code[later]? with
    | none =>
      have past : code.length ≤ later := List.getElem?_eq_none_iff.mp found
      refine Nat.le_of_eq ?_
      rw [position, position, List.take_of_length_le past, List.take_of_length_le (by omega)]
    | some =>
      rw [position_succ code found]
      exact Nat.le_add_right _ _

variable {code} in
theorem position_lt (below : index < later) (inside : index < code.length) :
    position code index < position code later := by
  obtain ⟨instr, found⟩ : ∃ instr, code[index]? = some instr :=
    ⟨_, List.getElem?_eq_getElem inside⟩
  have next : position code (index + 1) ≤ position code later := position_mono code below
  rw [position_succ code found] at next
  have := instr.encodedLength_pos
  omega

variable {code} in
theorem position_inj (inside : other < code.length)
    (same : position code index = position code other) : index = other := by
  rcases Nat.lt_trichotomy index other with less | same | greater
  · have := position_lt less (Nat.lt_trans less inside)
    omega
  · exact same
  · have := position_lt greater inside
    omega

theorem le_position (inside : index ≤ code.length) : index ≤ position code index := by
  induction index with
  | zero => exact Nat.zero_le _
  | succ index ih =>
    exact Nat.lt_of_le_of_lt (ih (Nat.le_of_lt inside))
      (position_lt (Nat.lt_succ_self index) inside)

variable {code} in
theorem near_of_short (short : position code code.length < 2 ^ 31) (inside : place ≤ code.length)
    (found : code[index]? = some instr) :
    -(2 ^ 31 : Nat) ≤ (position code place : Int) - position code index ∧
      (position code place : Int) - position code index < (2 ^ 31 : Nat) := by
  have here := (List.getElem?_eq_some_iff.mp found).1
  have := position_mono code inside
  have := position_mono code (Nat.le_of_lt here)
  omega

/-- Operands of jumps have no part in positions. -/
theorem position_mapIdx_retarget {σ : Type} (f : Nat → τ → σ) (index : Nat) :
    position (code.mapIdx fun place instr => instr.retarget (f place)) index =
      position code index := by
  have lengths : (code.mapIdx fun place instr => instr.retarget (f place)).map
      encodedLength = code.map encodedLength := by
    apply List.ext_getElem?
    intro place
    simp [Function.comp_def]
  rw [position, position, map_take, map_take, lengths]

theorem position_map_retarget {σ : Type} (f : τ → σ) (index : Nat) :
    position (code.map (retarget f)) index = position code index := by
  simp [position, ← map_take, Function.comp_def]

end Position

/-! ## Fixups -/

namespace Fixup

/-- Fixups for code whose first instruction has the given index. -/
def ofCode : Nat → List (Instruction JumpTarget) → List Fixup
  | _, [] => []
  | index, instr :: code => ofOperands index 0 instr.targets ++ ofCode (index + 1) code

theorem ofCode_append (index : Nat) (front back : List (Instruction JumpTarget)) :
    ofCode index (front ++ back) = ofCode index front ++ ofCode (index + front.length) back := by
  induction front generalizing index with
  | nil => simp [ofCode]
  | cons instr front ih =>
    rw [List.cons_append, ofCode, ih, ofCode, List.append_assoc, List.length_cons,
      Nat.add_right_comm, Nat.add_assoc]

theorem exists_mem_ofOperands {label : Nat} {targets : List JumpTarget} (index operand : Nat)
    (member : .label label ∈ targets) :
    ∃ place, ⟨index, place, label⟩ ∈ ofOperands index operand targets := by
  induction targets generalizing operand with
  | nil => cases member
  | cons target targets ih =>
    rcases List.mem_cons.mp member with rfl | later
    · exact ⟨operand, mem_cons_self⟩
    · obtain ⟨place, listed⟩ := ih (operand + 1) later
      refine ⟨place, ?_⟩
      cases target with
      | distance => exact listed
      | label => exact List.mem_cons_of_mem _ listed

/-- Every operand that is a label has a fixup. -/
theorem exists_mem_ofCode {code : List (Instruction JumpTarget)}
    {instr : Instruction JumpTarget} (start : Nat) {index label : Nat}
    (found : code[index]? = some instr) (member : .label label ∈ instr.targets) :
    ∃ operand, ⟨start + index, operand, label⟩ ∈ ofCode start code := by
  induction code generalizing start index with
  | nil => cases found
  | cons first code ih =>
    cases index with
    | zero =>
      cases found
      obtain ⟨operand, listed⟩ := exists_mem_ofOperands start 0 member
      exact ⟨operand, List.mem_append_left _ listed⟩
    | succ index =>
      obtain ⟨operand, listed⟩ := ih (start + 1) found
      rw [Nat.add_right_comm] at listed
      exact ⟨operand, List.mem_append_right _ listed⟩

end Fixup

/-- A unit under construction holds code with labels. In the buffer zeros stand for these, and each
has its fixup, in the order of the code. -/
def Emitter.Holds (emitter : Emitter) (code : List (Instruction JumpTarget)) : Prop :=
  emitter.instructions.toList = code.map (retarget JumpTarget.placeholder) ∧
    emitter.fixups.toList = Fixup.ofCode 0 code

theorem Emitter.Holds.push {emitter : Emitter} (holds : emitter.Holds code)
    (instr : Instruction JumpTarget) : (emitter.push instr).Holds (code ++ [instr]) := by
  have size : emitter.instructions.size = code.length := by
    rw [← Array.length_toList, holds.1, List.length_map]
  constructor
  · simp [Emitter.push, holds.1]
  · simp [Emitter.push, holds.2, size, Fixup.ofCode_append, Fixup.ofCode]

/-! ## Patching -/

theorem foldl_offsets (code : List (Instruction Int32)) (done : Array Nat) (running : Nat) :
    (code.foldl (fun (offsets, running) instr =>
      (offsets.push running, running + instr.encodedLength)) (done, running)).1.toList =
      done.toList ++ code.mapIdx fun index _ => running + position code index := by
  induction code generalizing done running with
  | nil => simp
  | cons instr code ih =>
    simp [ih, position, Nat.add_assoc]

/-- The offset of an instruction is its position. -/
theorem getD_offsets (code : Array (Instruction Int32)) (inside : index < code.size) :
    (offsets code).getD index 0 = position code.toList index := by
  rw [offsets, ← Array.foldl_toList, Array.getD_eq_getD_getElem?, ← Array.getElem?_toList,
    foldl_offsets code.toList #[] 0]
  simp [inside]

section Patch

variable {labels : Array (Option Nat)} {starts : Array Nat}
  {front back : List (Array Int32)} {start : Nat}

theorem near_of_distanceTo {position label : Nat} (known : labels.getD label none = some position)
    (near : distanceTo labels start label = .ok distance) :
    -(2 ^ 31 : Nat) ≤ (position : Int) - start ∧ (position : Int) - start < (2 ^ 31 : Nat) := by
  simp only [distanceTo, known] at near
  split at near
  · rename_i fits
    simpa only [Bool.and_eq_true, decide_eq_true_eq] using fits
  · cases near

theorem internal_of_distanceTo (failed : distanceTo labels start label = .error fault) :
    ∃ cause, fault = .internal cause := by
  unfold distanceTo at failed
  split at failed
  · cases failed
    exact ⟨_, rfl⟩
  · dsimp only at failed
    split at failed <;> cases failed
    exact ⟨_, rfl⟩

/-- What cannot be patched is a fault of whoever built the unit. -/
theorem internal_of_patch {operands : Array (Array Int32)}
    (failed : Emitter.patch labels starts operands fixup = .error fault) :
    ∃ cause, fault = .internal cause := by
  rcases bind_eq_error.mp failed with unknown | ⟨_, _, failed⟩
  · exact internal_of_distanceTo unknown
  · split at failed <;> cases failed
    exact ⟨_, rfl⟩

/-- A label that was patched in has a position near enough. -/
theorem distanceTo_of_foldlM {fixups : List Fixup} {operands patched : Array (Array Int32)}
    (ran : fixups.foldlM (Emitter.patch labels starts) operands = .ok patched)
    (member : fixup ∈ fixups) :
    ∃ distance, distanceTo labels (starts.getD fixup.instruction 0) fixup.label = .ok distance := by
  induction fixups generalizing operands with
  | nil => cases member
  | cons first fixups ih =>
    obtain ⟨_, done, ran⟩ := bind_eq_ok.mp ran
    rcases List.mem_cons.mp member with rfl | later
    · obtain ⟨distance, known, _⟩ := bind_eq_ok.mp done
      exact ⟨distance, known⟩
    · exact ih ran later

variable {f : JumpTarget → Int32}

/-- Patching the operands of one instruction, of which the first are patched. -/
theorem foldlM_ofOperands (before : List Int32) (targets : List JumpTarget)
    (plain : ∀ bytes, f (.distance bytes) = bytes) (known : ∀ label, .label label ∈ targets →
      distanceTo labels (starts.getD front.length 0) label = .ok (f (.label label))) :
    (Fixup.ofOperands front.length before.length targets).foldlM (Emitter.patch labels starts)
        (front ++ (before ++ targets.map JumpTarget.placeholder).toArray :: back).toArray =
      .ok (front ++ (before ++ targets.map f).toArray :: back).toArray := by
  induction targets generalizing before with
  | nil => rfl
  | cons target targets ih =>
    have rest (value : Int32) := ih (before ++ [value]) fun label member =>
      known label (List.mem_cons_of_mem _ member)
    simp only [List.length_append, List.length_singleton, List.append_assoc,
      List.singleton_append] at rest
    cases target with
    | distance bytes =>
      rw [Fixup.ofOperands, List.map_cons, List.map_cons, plain]
      exact rest bytes
    | label label =>
      rw [Fixup.ofOperands, List.foldlM_cons, Emitter.patch, known label mem_cons_self]
      simpa [bind, Except.bind, List.modify_eq_set] using rest (f (.label label))

/-- Patching code from an instruction on. -/
theorem foldlM_ofCode {f : Nat → JumpTarget → Int32} (code : List (Instruction JumpTarget))
    (plain : ∀ index bytes, f index (.distance bytes) = bytes)
    (known : ∀ {index : Nat} {instr : Instruction JumpTarget},
      code[index]? = some instr → ∀ label, .label label ∈ instr.targets →
        distanceTo labels (starts.getD (front.length + index) 0) label =
          .ok (f (front.length + index) (.label label))) :
    (Fixup.ofCode front.length code).foldlM (Emitter.patch labels starts)
        (front ++ code.map fun instr =>
          (instr.targets.map JumpTarget.placeholder).toArray).toArray =
      .ok (front ++ code.mapIdx fun index instr =>
        (instr.targets.map (f (front.length + index))).toArray).toArray := by
  induction code generalizing front with
  | nil => simp [Fixup.ofCode, pure, Except.pure]
  | cons instr code ih =>
    have rest := @ih (front ++ [(instr.targets.map (f front.length)).toArray])
      fun {index} _ found label member => by
        have later := @known (index + 1) _ found label member
        simpa [Nat.add_assoc, Nat.add_comm 1] using later
    rw [Fixup.ofCode, List.foldlM_append, List.map_cons]
    refine (congrArg (· >>= _)
      (foldlM_ofOperands [] instr.targets (plain front.length) (@known 0 _ rfl))).trans ?_
    simpa [Nat.add_assoc, Nat.add_comm 1, bind, Except.bind] using rest

end Patch

/-! ## From labels to distances -/

/-- Every jump operand is a label, and each label that is used has the position of the instruction
that `place` tells, or of the end. -/
structure Labelled (code : List (Instruction JumpTarget)) (labels : Array (Option Nat))
    (place : Nat → Nat) : Prop where
  label : ∀ instr ∈ code, ∀ target ∈ instr.targets, ∃ id, target = .label id ∧
    labels.getD id none = some (position code (place id))
  near : ∀ {index : Nat} {instr : Instruction JumpTarget}, code[index]? = some instr →
    ∀ id, .label id ∈ instr.targets →
      -(2 ^ 31 : Nat) ≤ (position code (place id) : Int) - position code index ∧
        (position code (place id) : Int) - position code index < (2 ^ 31 : Nat)
  encodable : ∀ instr ∈ code, instr.Encodable

/-- Labels with an instruction behind each that is used. -/
structure Placed (code : List (Instruction JumpTarget)) (labels : Array (Option Nat))
    (place : Nat → Nat) : Prop extends Labelled code labels place where
  inside : ∀ instr ∈ code, ∀ id, .label id ∈ instr.targets → place id < code.length

/-- The index of each instruction that a label stands for fits an operand. -/
def Narrow (code : List (Instruction JumpTarget)) (place : Nat → Nat) : Prop :=
  ∀ instr ∈ code, ∀ id, .label id ∈ instr.targets → place id < 2 ^ 31

theorem Placed.narrow_of_short (placed : Placed code labels place)
    (short : position code code.length < 2 ^ 31) : Narrow code place := by
  intro instr member id jumps
  have := placed.inside instr member id jumps
  have := le_position code (Nat.le_refl code.length)
  omega

def distanceFrom (code : List (Instruction JumpTarget)) (place : Nat → Nat) (start : Nat) :
    JumpTarget → Int32
  | .distance bytes => bytes
  | .label id => Int32.ofInt ((position code (place id) : Int) - start)

def resolvedCode (code : List (Instruction JumpTarget)) (place : Nat → Nat) :
    List (Instruction Int32) :=
  code.mapIdx fun index instr =>
    instr.retarget (distanceFrom code place (position code index))

theorem getElem?_resolvedCode (code : List (Instruction JumpTarget)) (place : Nat → Nat)
    (index : Nat) : (resolvedCode code place)[index]? =
      code[index]?.map (retarget (distanceFrom code place (position code index))) := by
  rw [resolvedCode, List.getElem?_mapIdx]

section Placed

variable {code : List (Instruction JumpTarget)} {labels : Array (Option Nat)} {place : Nat → Nat}

theorem distanceTo_eq_ok {label : Nat} (labelled : Labelled code labels place)
    (found : code[index]? = some instr) (member : .label label ∈ instr.targets) :
    distanceTo labels (position code index) label =
      .ok (distanceFrom code place (position code index) (.label label)) := by
  obtain ⟨_, same, known⟩ := labelled.label instr (mem_of_getElem? found) _ member
  cases same
  have near := labelled.near found label member
  have fits : (-(2 ^ 31 : Nat) ≤ ((position code (place label) : Int) - position code index) &&
      ((position code (place label) : Int) - position code index) < (2 ^ 31 : Nat)) = true := by
    simp only [Bool.and_eq_true, decide_eq_true_eq]
    exact near
  simp only [distanceTo, known, fits, if_true, distanceFrom]

variable {emitter : Emitter}

theorem Emitter.Holds.getD_offsets (holds : emitter.Holds code)
    (found : code[index]? = some instr) :
    (offsets emitter.instructions).getD index 0 = position code index := by
  have inside : index < emitter.instructions.size := by
    rw [← Array.length_toList, holds.1, List.length_map]
    exact (List.getElem?_eq_some_iff.mp found).1
  rw [Machine.getD_offsets _ inside, holds.1, position_map_retarget]

theorem withTargets_retarget (instr : Instruction JumpTarget) (f g : JumpTarget → Int32) :
    (instr.retarget f).withTargets (instr.targets.map g) = instr.retarget g := by
  cases instr <;> rfl

/-- Patching leads every label to its distance, and changes nothing else. -/
theorem resolveFixups_eq_ok (holds : emitter.Holds code)
    (labelled : Labelled code emitter.labels place) :
    emitter.resolveFixups = .ok (resolvedCode code place).toArray := by
  have patched := @foldlM_ofCode emitter.labels (offsets emitter.instructions) []
    (fun index => distanceFrom code place (position code index)) code (fun _ _ => rfl)
    fun {index} _ found label member => by
      rw [List.length_nil, Nat.zero_add, holds.getD_offsets found]
      exact distanceTo_eq_ok labelled found member
  have buffer : emitter.instructions =
      (code.map (retarget JumpTarget.placeholder)).toArray := by
    rw [← holds.1, Array.toArray_toList]
  have operands : emitter.instructions.map (·.targets.toArray) = (code.map fun instr =>
      (instr.targets.map JumpTarget.placeholder).toArray).toArray := by
    simp [buffer, Function.comp_def]
  rw [Emitter.resolveFixups, ← Array.foldlM_toList, holds.2, operands]
  simp only [List.nil_append, List.length_nil, Nat.zero_add] at patched
  rw [patched, buffer]
  refine congrArg Except.ok (Array.ext' (List.ext_getElem? fun index => ?_))
  cases found : code[index]? <;>
    simp [getElem?_resolvedCode, List.getElem?_zipWith, found, withTargets_retarget]

/-- Where patching succeeds, every label that is used has a position near enough. -/
theorem distanceTo_of_resolveFixups (holds : emitter.Holds code)
    (ran : emitter.resolveFixups = .ok resolved) {index label : Nat}
    (found : code[index]? = some instr) (member : .label label ∈ instr.targets) :
    ∃ distance, distanceTo emitter.labels (position code index) label = .ok distance := by
  obtain ⟨_, listed⟩ := Fixup.exists_mem_ofCode 0 found member
  rw [Nat.zero_add, ← holds.2] at listed
  rw [Emitter.resolveFixups, ← Array.foldlM_toList] at ran
  obtain ⟨_, ran, _⟩ := bind_eq_ok.mp ran
  rw [← holds.getD_offsets found]
  exact distanceTo_of_foldlM ran listed

end Placed

/-! ## From bytes to instructions -/

/-- The first instructions of code are decoded, and their positions are known. -/
structure Decodes (code : List (Instruction Int32)) (count : Nat) (decoded : DecodedCode) :
    Prop where
  code_eq : decoded.code.toList = code.take count
  offsets : decoded.offsets.toList = (List.range count).map (position code)
  size : decoded.size = position code count

theorem decodes_empty (code : List (Instruction Int32)) : Decodes code 0 .empty :=
  ⟨rfl, rfl, rfl⟩

theorem Decodes.push (decodes : Decodes code count decoded) (found : code[count]? = some instr) :
    Decodes code (count + 1) (decoded.push instr instr.encodedLength) where
  code_eq := by
    rw [DecodedCode.push, Array.toList_push, decodes.code_eq, List.take_add_one, found]
    rfl
  offsets := by
    rw [DecodedCode.push, Array.toList_push, decodes.offsets, decodes.size, List.range_succ,
      List.map_append]
    rfl
  size := by rw [DecodedCode.push, decodes.size, position_succ code found]

theorem decodeFrom_eq_ok (encodable : ∀ instr ∈ code, instr.Encodable)
    (rest : List (Instruction Int32)) (inside : count ≤ code.length)
    (split : code.drop count = rest) (decodes : Decodes code count decoded)
    (enough : (rest.flatMap encode).length ≤ fuel) :
    ∃ final, DecodedCode.decodeFrom fuel (rest.flatMap encode) decoded = .ok final ∧
      Decodes code code.length final := by
  induction rest generalizing count decoded fuel with
  | nil =>
    refine ⟨decoded, by cases fuel <;> rfl, ?_⟩
    have past : code.length ≤ count := drop_eq_nil_iff.mp split
    rwa [Nat.le_antisymm past inside]
  | cons instr rest ih =>
    obtain ⟨found, split⟩ := cons_of_drop split
    have read := instr.decode_encode (encodable _ (mem_of_getElem? found))
      (rest.flatMap encode)
    rw [List.flatMap_cons] at enough ⊢
    obtain ⟨byte, tail, bytes⟩ : ∃ byte tail,
        instr.encode ++ rest.flatMap encode = byte :: tail := ⟨_, _, rfl⟩
    cases fuel with
    | zero => simp [encode] at enough
    | succ fuel =>
      have less : (rest.flatMap encode).length ≤ fuel := by
        simp only [encode, List.cons_append, List.length_cons, List.length_append] at enough
        omega
      obtain ⟨final, ran, whole⟩ := ih
        (List.getElem?_eq_some_iff.mp found).1 split (decodes.push found) less
      refine ⟨final, ?_, whole⟩
      rw [bytes, DecodedCode.decodeFrom, ← bytes, read]
      · exact ran
      · exact List.cons_ne_nil _ _

/-- Bisection finds an entry of an ascending range. -/
theorem bisect_eq {offsets : Array Nat} {base size index : Nat}
    (ascending : ∀ {i j : Nat}, i < j → j < offsets.size → offsets.getD i 0 < offsets.getD j 0)
    (after : base ≤ index) (before : index < base + size) (inside : base + size ≤ offsets.size) :
    DecodedCode.bisect offsets (offsets.getD index 0) base size = index := by
  fun_induction DecodedCode.bisect offsets (offsets.getD index 0) base size with
  | case1 base size single => omega
  | case2 base size several half middle ih =>
    -- The entry in the middle tells on which side of it the index is.
    have side : offsets.getD index 0 < offsets.getD middle 0 ↔ index < middle := by
      constructor
      · intro less
        rcases Nat.lt_trichotomy index middle with _ | rfl | greater
        · assumption
        · omega
        · have := ascending greater (by omega)
          omega
      · exact fun less => ascending less (by omega)
    apply ih <;> split <;> omega

section Resolve

variable {code : List (Instruction Int32)} {decoded : DecodedCode}
  (decodes : Decodes code code.length decoded)

include decodes

theorem Decodes.indexAt_eq_some_iff {place index : Nat} :
    decoded.indexAt place = some index ↔ index < code.length ∧ place = position code index := by
  have size : decoded.offsets.size = code.length := by
    rw [← Array.length_toList, decodes.offsets, List.length_map, List.length_range]
  have entry {index : Nat} (inside : index < code.length) :
      decoded.offsets[index]? = some (position code index) := by
    rw [← Array.getElem?_toList, decodes.offsets, List.getElem?_map, List.getElem?_range inside]
    rfl
  simp only [DecodedCode.indexAt]
  constructor
  · intro found
    split at found
    · rename_i here
      cases found
      have inside := Nat.lt_of_lt_of_eq (Array.getElem?_eq_some_iff.mp here).1 size
      rw [entry inside] at here
      exact ⟨inside, (Option.some.inj here).symm⟩
    · cases found
  · rintro ⟨inside, rfl⟩
    have value {index : Nat} (inside : index < code.length) :
        decoded.offsets.getD index 0 = position code index := by
      rw [Array.getD_eq_getD_getElem?, entry inside]
      rfl
    have found := bisect_eq (fun {i j} below _ => by
        rw [value (by omega), value (by omega)]
        exact position_lt below (by omega))
      (Nat.zero_le index) (by omega) (Nat.le_of_eq (Nat.zero_add decoded.offsets.size))
    rw [value inside] at found
    rw [found, if_pos (entry inside)]

theorem Decodes.resolve_eq_ok_iff {start index : Nat} : decoded.resolve start distance = .ok index ↔
      (index < code.length ∧ (start : Int) + distance.toInt = position code index) ∧
        index < 2 ^ 31 := by
  simp only [DecodedCode.resolve]
  split
  · rename_i absent
    refine ⟨nofun, fun ⟨⟨inside, lands⟩, _⟩ => ?_⟩
    rw [lands, if_neg (by omega), Int.toNat_natCast,
      decodes.indexAt_eq_some_iff.mpr ⟨inside, rfl⟩] at absent
    cases absent
  · rename_i other found
    split at found
    · cases found
    · obtain ⟨inside, lands⟩ := decodes.indexAt_eq_some_iff.mp found
      have same : index < code.length → (start : Int) + distance.toInt = position code index →
          other = index := fun below here =>
        Option.some.inj (found.symm.trans (decodes.indexAt_eq_some_iff.mpr ⟨below, by omega⟩))
      grind

theorem Decodes.resolveAll_eq_ok_iff {indices : List (Instruction Nat)} :
    decoded.resolveAll = .ok indices.toArray ↔ ∀ index : Nat, indices[index]?.map .ok =
        code[index]?.map (mapTargets (decoded.resolve (position code index))) := by
  have lists : decoded.resolveAll = .ok indices.toArray ↔
      (decoded.offsets.zip decoded.code).toList.mapM (fun entry =>
        entry.2.mapTargets (decoded.resolve entry.1)) = .ok indices := by
    rw [DecodedCode.resolveAll, Array.mapM_eq_mapM_toList]
    cases (decoded.offsets.zip decoded.code).toList.mapM fun entry =>
      entry.2.mapTargets (decoded.resolve entry.1) <;> simp [Functor.map, Except.map]
  rw [lists, mapM_eq_ok, Array.toList_zip, decodes.code_eq, decodes.offsets, List.take_length]
  have entries : ((List.range code.length).map (position code)).zip code =
      code.mapIdx fun index instr => (position code index, instr) := by
    apply List.ext_getElem <;> simp
  rw [entries]
  simp [List.ext_getElem?_iff, Function.comp_def, eq_comm]

end Resolve

/-! ## Loading -/

def indexOf (place : Nat → Nat) : JumpTarget → Nat
  | .distance _ => 0
  | .label id => place id

section Load

variable {code : List (Instruction JumpTarget)} {labels : Array (Option Nat)} {place : Nat → Nat}

theorem position_resolvedCode (index : Nat) :
    position (resolvedCode code place) index = position code index :=
  position_mapIdx_retarget code _ index

theorem encodeAll_toArray (code : List (Instruction Int32)) :
    encodeAll code.toArray = code.flatMap encode := by
  rw [encodeAll, List.foldr_toArray]
  induction code with
  | nil => rfl
  | cons _ code ih => rw [List.foldr_cons, ih, List.flatMap_cons]

theorem landing_distanceFrom (labelled : Labelled code labels place) {index id : Nat}
    (found : code[index]? = some instr) (member : .label id ∈ instr.targets) :
    (position code index : Int) +
      (distanceFrom code place (position code index) (.label id)).toInt =
        position code (place id) := by
  have near := labelled.near found id member
  rw [distanceFrom, Int32.toInt_ofInt_of_le (by simp; omega) (by simp; omega)]
  omega

theorem length_resolvedCode : (resolvedCode code place).length = code.length := by
  simp [resolvedCode]

theorem resolve_distanceFrom (placed : Placed code labels place) (narrow : Narrow code place)
    (decodes : Decodes (resolvedCode code place) (resolvedCode code place).length decoded)
    (found : code[index]? = some instr) (member : target ∈ instr.targets) :
    decoded.resolve (position code index) (distanceFrom code place (position code index) target) =
      .ok (indexOf place target) := by
  obtain ⟨id, rfl, _⟩ := placed.label instr (mem_of_getElem? found) _ member
  refine decodes.resolve_eq_ok_iff.mpr ⟨⟨?_, ?_⟩, narrow instr (mem_of_getElem? found) id member⟩
  · rw [length_resolvedCode]
    exact placed.inside instr (mem_of_getElem? found) id member
  · rw [position_resolvedCode, landing_distanceFrom placed.toLabelled found member]
    rfl

theorem length_flatMap_encode (code : List (Instruction Int32)) :
    (code.flatMap encode).length = position code code.length := by
  simp [position, List.length_flatMap, length_encode]

theorem Labelled.encodable_resolvedCode (labelled : Labelled code labels place) :
    ∀ instr ∈ resolvedCode code place, instr.Encodable := by
  intro instr member
  obtain ⟨_, found⟩ := List.mem_iff_getElem?.mp member
  rw [getElem?_resolvedCode, Option.map_eq_some_iff] at found
  obtain ⟨original, here, rfl⟩ := found
  simpa [Instruction.Encodable] using labelled.encodable original (mem_of_getElem? here)

/-- A unit under construction that holds code whose labels are placed. -/
structure Emitter.Places (emitter : Emitter) (code : List (Instruction JumpTarget))
    (place : Nat → Nat) : Prop extends Placed code emitter.labels place where
  holds : emitter.Holds code

/-- The unit of resolved code, before it is checked. -/
def Emitter.unit (emitter : Emitter) (signature : FunctionType)
    (code : Array (Instruction Int32)) : CodeUnit where
  function := emitter.function
  bytes := encodeAll code
  signature := signature
  localSlots := emitter.localSlots
  maxStack := 0
  signatures := emitter.signatures

def loadedUnit (emitter : Emitter) (code : List (Instruction Nat)) (signature : FunctionType)
    (maxStack : Nat) : LoadedUnit where
  function := emitter.function
  code := code.toArray
  signature := signature
  localSlots := emitter.localSlots
  maxStack := maxStack
  signatures := emitter.signatures

/-- Loading turns every label into the index of the instruction behind it. -/
theorem load_eq_ok (placed : Placed code labels place) (narrow : Narrow code place)
    (emitter : Emitter) (signature : FunctionType) (maxStack : Nat) :
    CodeUnit.load { emitter.unit signature (resolvedCode code place).toArray with maxStack } =
      .ok (loadedUnit emitter (code.map (retarget (indexOf place))) signature maxStack) := by
  obtain ⟨decoded, ran, decodes⟩ := decodeFrom_eq_ok placed.encodable_resolvedCode _ (Nat.zero_le _)
    drop_zero (decodes_empty _) (Nat.le_refl _)
  have resolved : decoded.resolveAll = .ok (code.map (retarget (indexOf place))).toArray := by
    refine decodes.resolveAll_eq_ok_iff.mpr fun index => ?_
    rw [getElem?_resolvedCode, List.getElem?_map]
    cases here : code[index]? with
    | none => rfl
    | some =>
      simp only [Option.map_some, position_resolvedCode, mapTargets_retarget]
      exact congrArg some (mapTargets_eq_ok fun _ member =>
        resolve_distanceFrom placed narrow decodes here member).symm
  rw [CodeUnit.load, DecodedCode.decodeAll, Emitter.unit, encodeAll_toArray, ran]
  simp only [resolved]
  rfl

/-- Where code is loaded, each label that is used stands for an instruction whose index fits. -/
theorem Labelled.placed_of_load (labelled : Labelled code labels place) {unit : CodeUnit}
    (bytes : unit.bytes = encodeAll (resolvedCode code place).toArray)
    (done : unit.load = .ok loaded) : Placed code labels place ∧ Narrow code place := by
  obtain ⟨decoded, ran, decodes⟩ := decodeFrom_eq_ok labelled.encodable_resolvedCode _
    (Nat.zero_le _) drop_zero (decodes_empty _) (Nat.le_refl _)
  rw [CodeUnit.load, DecodedCode.decodeAll, bytes, encodeAll_toArray, ran] at done
  have each : ∀ instr ∈ code, ∀ id, .label id ∈ instr.targets →
      place id < code.length ∧ place id < 2 ^ 31 := by
    intro instr member id jumps
    cases resolved : decoded.resolveAll with
    | error => simp [resolved] at done
    | ok indices =>
      obtain ⟨index, found⟩ := List.mem_iff_getElem?.mp member
      have each := (@Decodes.resolveAll_eq_ok_iff _ _ decodes indices.toList).mp resolved index
      rw [getElem?_resolvedCode, found] at each
      obtain ⟨_, _, mapped⟩ := Option.map_eq_some_iff.mp each
      obtain ⟨target, lands⟩ := ok_of_mapTargets mapped.symm
        (distanceFrom code place (position code index) (.label id)) (by simpa using ⟨_, jumps, rfl⟩)
      rw [position_resolvedCode, decodes.resolve_eq_ok_iff, position_resolvedCode,
        landing_distanceFrom labelled found jumps, length_resolvedCode] at lands
      obtain ⟨⟨inside, same⟩, narrow⟩ := lands
      rw [position_inj inside (Int.ofNat.inj same)]
      exact ⟨inside, narrow⟩
  exact ⟨⟨labelled, fun _ member id jumps => (each _ member id jumps).1⟩,
    fun _ member id jumps => (each _ member id jumps).2⟩

/-- Load and check a unit. -/
def CodeUnit.sealed (unit : CodeUnit) : Except Error CodeUnit := do
  let loaded ← unit.load
  let maxStack ← loaded.verify
  return { unit with maxStack := maxStack }

theorem finish_eq_sealed (emitter : Emitter) (signature : FunctionType) (limit : Nat) :
    emitter.finish signature limit = emitter.resolveFixups >>= fun code =>
        if emitter.size > limit then .error (.codeTooLarge emitter.function emitter.size limit)
        else (emitter.unit signature code).sealed := by
  unfold finish CodeUnit.sealed Emitter.unit
  refine bind_congr fun code => ?_
  by_cases large : emitter.size > limit
  · simp only [large, if_true]
    rfl
  · simp only [large, if_false]

/-- A unit that is finished is the one that was loaded and checked. -/
theorem sealed_eq_ok {unit made : CodeUnit} (sealed : unit.sealed = .ok made) :
    made = { unit with maxStack := made.maxStack } ∧
      ∃ loaded, unit.load = .ok loaded ∧ loaded.verify = .ok made.maxStack := by
  obtain ⟨loaded, loading, sealed⟩ := bind_eq_ok.mp sealed
  obtain ⟨_, verified, same⟩ := bind_eq_ok.mp sealed
  cases same
  exact ⟨rfl, loaded, loading, verified⟩

/-- Finishing a unit whose labels are placed comes down to checking its loaded form. -/
theorem finish_eq (places : emitter.Places code place) (narrow : Narrow code place)
    (signature : FunctionType) (limit : Nat) : emitter.finish signature limit =
      if emitter.size > limit then .error (.codeTooLarge emitter.function emitter.size limit)
      else (loadedUnit emitter (code.map (retarget (indexOf place))) signature 0).verify.map
        fun maxStack =>
          { emitter.unit signature (resolvedCode code place).toArray with maxStack } := by
  have loaded : (emitter.unit signature (resolvedCode code place).toArray).load = _ :=
    load_eq_ok places.toPlaced narrow emitter signature 0
  rw [finish_eq_sealed, resolveFixups_eq_ok places.holds places.toLabelled]
  simp only [bind, Except.bind, CodeUnit.sealed, loaded]
  rfl

/-- A unit that passes the check is loaded as its checked form. -/
theorem Labelled.load_of_sealed {emitter : Emitter} {unit : CodeUnit}
    (labelled : Labelled code emitter.labels place)
    (made : (emitter.unit signature (resolvedCode code place).toArray).sealed = .ok unit) :
    Placed code emitter.labels place ∧ unit.bytes = encodeAll (resolvedCode code place).toArray ∧
      unit.load = .ok
        (loadedUnit emitter (code.map (retarget (indexOf place))) signature unit.maxStack) ∧
      (loadedUnit emitter (code.map (retarget (indexOf place))) signature 0).verify =
        .ok unit.maxStack := by
  obtain ⟨same, _, done, verified⟩ := sealed_eq_ok made
  obtain ⟨placed, narrow⟩ := labelled.placed_of_load rfl done
  cases done.symm.trans (load_eq_ok placed narrow emitter signature 0)
  refine ⟨placed, by rw [same]; rfl, ?_, verified⟩
  rw [same]
  exact load_eq_ok placed narrow emitter signature _

theorem load_of_finish (places : emitter.Places code place)
    (finished : emitter.finish signature limit = .ok unit) : ∃ maxStack, unit.load = .ok
        (loadedUnit emitter (code.map (retarget (indexOf place))) signature maxStack) ∧
      (loadedUnit emitter (code.map (retarget (indexOf place))) signature 0).verify =
        .ok maxStack := by
  rw [finish_eq_sealed, resolveFixups_eq_ok places.holds places.toLabelled] at finished
  simp only [bind, Except.bind] at finished
  split at finished
  · cases finished
  · exact ⟨_, (places.toLabelled.load_of_sealed finished).2.2⟩

end Load

end TwinEngine.Machine
