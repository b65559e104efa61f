import Mathlib.Data.List.Induction
import TwinEngine.Proofs.Machine.Emitting
import TwinEngine.Proofs.Machine.Splitting

/-!
Contract: emission, patching and loading agree.

Owns: sequences of operations on a unit under construction, the code and the labels that they ask
for, and what becomes of these when the unit is finished and loaded.
-/

namespace TwinEngine.Machine

namespace Emitter

/-- What can be asked of a unit under construction, with jumps through labels only. -/
inductive Operation where
  | emit (action : Action)
  | jump (condition : Condition) (label : Nat)
  | switch (labels : List Nat)
  | allocate
  | name (name : Nat)
  | define (label : Nat)
  | signature (type : FunctionType)
  | scratch
deriving DecidableEq

/-- An operation that fails changes nothing. -/
def apply (emitter : Emitter) : Operation → Emitter
  | .emit action => emitter.emit action
  | .jump condition label => emitter.jump condition label
  | .switch labels => (emitter.switch labels).toOption.getD emitter
  | .allocate => emitter.allocLabel.2
  | .name name => (emitter.labelFor name).2
  | .define label => emitter.define label
  | .signature type => ((emitter.signature type).toOption.map Prod.snd).getD emitter
  | .scratch => (emitter.scratchSlot.toOption.map Prod.snd).getD emitter

def run (emitter : Emitter) (operations : List Operation) : Emitter :=
  operations.foldl apply emitter

/-- The instruction that an operation asks for, with labels as operands. -/
def Operation.instructions : Operation → List (Instruction Nat)
  | .emit action => [.plain action]
  | .jump condition label => [.jump condition label]
  | .switch labels => if labels.length ≤ 65535 then [.switch labels] else []
  | _ => []

def emitted (operations : List Operation) : List (Instruction Nat) :=
  operations.flatMap Operation.instructions

/-- The number of instructions in front of the definition of a label, that is the index of the first
behind it. -/
def placeOf (label : Nat) : List Operation → Option Nat
  | [] => none
  | operation :: operations =>
    if operation = .define label then some 0
    else (placeOf label operations).map (· + operation.instructions.length)

/-- Labels are defined once, when they are allocated, and jumps lead to allocated labels. -/
structure Regular (emitter : Emitter) (operations : List Operation) : Prop where
  defines : ∀ (index label : Nat), operations[index]? = some (.define label) →
    label < (emitter.run (operations.take index)).labels.size ∧
      .define label ∉ operations.take index
  jumps : ∀ instr ∈ emitted operations, ∀ label ∈ instr.targets,
    label < (emitter.run operations).labels.size

end Emitter

open Emitter List TwinEngine.Machine.Instruction

variable {code : List (Instruction Nat)} {place : Nat → Option Nat} {emitter : Emitter}

/-- A unit under construction holds code and the places of its labels. -/
structure Assembled (code : List (Instruction Nat)) (place : Nat → Option Nat)
    (emitter : Emitter) : Prop where
  holds : emitter.Holds (code.map (retarget .label))
  size : emitter.size = position code code.length
  labels : ∀ {label : Nat}, label < emitter.labels.size →
    emitter.labels[label]? = some ((place label).map (position code))
  places : ∀ {label index : Nat}, place label = some index →
    label < emitter.labels.size ∧ index ≤ code.length

namespace Assembled

variable (assembled : Assembled code place emitter)

include assembled

theorem push (instr : Instruction Nat) :
    Assembled (code ++ [instr]) place (emitter.push (instr.retarget .label)) where
  holds := by
    have pushed := assembled.holds.push (instr.retarget .label)
    rwa [← map_singleton, ← map_append] at pushed
  size := by
    rw [position_append_length, Emitter.push]
    simp [assembled.size, position]
  labels := by
    intro label inside
    refine (assembled.labels inside).trans (congrArg some ?_)
    cases placed : place label with
    | none => rfl
    | some index => simp [position_append [instr] (assembled.places placed).2]
  places := by
    intro label index placed
    obtain ⟨inside, _⟩ := assembled.places placed
    exact ⟨inside, by simp; omega⟩

theorem congr (instructions : other.instructions = emitter.instructions)
    (fixups : other.fixups = emitter.fixups) (labels : other.labels = emitter.labels)
    (size : other.size = emitter.size) : Assembled code place other := by
  obtain ⟨⟨buffer, waiting⟩, size_eq, labels_eq, places⟩ := assembled
  exact ⟨⟨instructions ▸ buffer, fixups ▸ waiting⟩, size ▸ size_eq, labels ▸ labels_eq,
    labels ▸ places⟩

theorem allocate : Assembled code place emitter.allocLabel.2 where
  holds := assembled.holds
  size := assembled.size
  labels := by
    intro label inside
    rw [allocLabel, Array.getElem?_push]
    split
    · cases placed : place label with
      | none => rfl
      | some index =>
        have := (assembled.places placed).1
        omega
    · simp only [allocLabel, Array.size_push] at inside
      exact assembled.labels (by omega)
  places := by
    intro label index placed
    obtain ⟨inside, below⟩ := assembled.places placed
    exact ⟨by simp only [allocLabel, Array.size_push]; omega, below⟩

theorem labelFor (name : Nat) : Assembled code place (emitter.labelFor name).2 := by
  unfold Emitter.labelFor
  split
  · exact assembled
  · exact assembled.allocate.congr rfl rfl rfl rfl

theorem define (allocated : label < emitter.labels.size) :
    Assembled code (fun other => if other = label then some code.length else place other)
      (emitter.define label) where
  holds := assembled.holds
  size := assembled.size
  labels := by
    intro other inside
    simp only [Emitter.define, Array.size_setIfInBounds] at inside ⊢
    rw [Array.getElem?_setIfInBounds]
    split
    · rename_i same
      simp [same, assembled.size]
    · rename_i apart
      rw [if_neg (Ne.symm apart)]
      exact assembled.labels inside
  places := by
    intro other _ placed
    simp only [Emitter.define, Array.size_setIfInBounds]
    split at placed
    · rename_i same
      cases placed
      exact ⟨same ▸ allocated, Nat.le_refl _⟩
    · exact assembled.places placed

end Assembled

/-! ## Finishing -/

/-- Labels that cannot be resolved are a fault of whoever built the unit. -/
theorem internal_of_resolveFixups (failed : emitter.resolveFixups = .error fault) :
    ∃ cause, fault = .internal cause := by
  rw [resolveFixups, ← Array.foldlM_toList] at failed
  rcases bind_eq_error.mp failed with failed | ⟨_, _, absurd⟩
  swap
  · cases absurd
  generalize emitter.fixups.toList = fixups, Array.map _ _ = operands at failed
  induction fixups generalizing operands with
  | nil => cases failed
  | cons fixup fixups ih =>
    rcases bind_eq_error.mp failed with unpatched | ⟨_, _, later⟩
    · exact internal_of_patch unpatched
    · exact ih _ later

section Sealed

variable {unit : CodeUnit} {loaded : LoadedUnit}

theorem function_of_load (done : unit.load = .ok loaded) : loaded.function = unit.function := by
  unfold CodeUnit.load at done
  split at done
  · cases done
  · split at done <;> cases done
    rfl

theorem verification_of_sealed (failed : unit.sealed = .error fault) :
    ∃ cause, fault = .verification unit.function cause := by
  rcases bind_eq_error.mp failed with unloaded | ⟨loaded, loading, failed⟩
  · exact verification_of_load unloaded
  · rw [← function_of_load loading]
    rcases bind_eq_error.mp failed with unverified | ⟨_, _, absurd⟩
    · rw [LoadedUnit.verify] at unverified
      generalize Option.get _ _ = answer at unverified
      cases answer <;> cases unverified
      exact ⟨_, rfl⟩
    · cases absurd

end Sealed

/-! ## Runs of operations -/

variable {operations : List Operation}

theorem placeOf_snoc (label : Nat) (operations : List Operation) (operation : Operation) :
    placeOf label (operations ++ [operation]) = (placeOf label operations).or
      (if operation = .define label then some (emitted operations).length else none) := by
  induction operations with
  | nil => simp [placeOf, emitted]
  | cons _ operations ih =>
    simp only [cons_append, placeOf, ih]
    split
    · rfl
    · cases placeOf label operations <;> split <;> simp [emitted, Nat.add_comm]

theorem placeOf_eq_none (absent : .define label ∉ operations) :
    placeOf label operations = none := by
  induction operations with
  | nil => rfl
  | cons _ operations ih =>
    rw [mem_cons, not_or] at absent
    rw [placeOf, if_neg (Ne.symm absent.1), ih absent.2]
    rfl

theorem Assembled.apply (assembled : Assembled (emitted operations) (placeOf · operations) emitter)
    (operation : Operation) (regular : ∀ {label}, operation = .define label →
      label < emitter.labels.size ∧ .define label ∉ operations) :
    Assembled (emitted (operations ++ [operation])) (placeOf · (operations ++ [operation]))
      (emitter.apply operation) := by
  have code : emitted (operations ++ [operation]) =
      emitted operations ++ operation.instructions := by simp [emitted]
  rw [code]
  simp only [placeOf_snoc]
  -- Only a definition places a label, and only the others emit code or allocate labels.
  cases operation with
  | define label =>
    obtain ⟨allocated, absent⟩ := regular rfl
    have places : (fun other => (placeOf other operations).or
        (if Operation.define label = .define other then some (emitted operations).length
          else none)) =
        fun other => if other = label then some (emitted operations).length
          else placeOf other operations := by
      funext other
      by_cases same : other = label
      · simp [same, placeOf_eq_none absent]
      · simp [same, Ne.symm same]
    simp only [places, Operation.instructions, append_nil]
    exact assembled.define allocated
  | _ => ?_
  all_goals
    simp only [reduceCtorEq, if_false, Option.or_none, Operation.instructions, append_nil,
      Emitter.apply]
  case emit action => exact assembled.push (.plain action)
  case jump condition label => exact assembled.push (.jump condition label)
  case switch labels =>
    rw [Emitter.switch]
    by_cases wide : labels.length > 65535
    · rw [if_pos wide, if_neg (by omega), append_nil]
      exact assembled
    · rw [if_neg wide, if_pos (by omega)]
      exact assembled.push (.switch labels)
  case allocate => exact assembled.allocate
  case name name => exact assembled.labelFor name
  case signature | scratch =>
    simp only [Emitter.signature, Emitter.scratchSlot]
    split
    · exact assembled
    · split
      · exact assembled
      · exact assembled.congr rfl rfl rfl rfl

theorem assembled_run {function localSlots : Nat}
    (regular : Regular (new function localSlots) operations) :
    Assembled (emitted operations) (placeOf · operations)
      ((new function localSlots).run operations) := by
  have defines := regular.defines
  clear regular
  induction operations using reverseRecOn with
  | nil => exact ⟨⟨rfl, rfl⟩, rfl, by simp [run, new], by simp [placeOf]⟩
  | append_singleton operations operation ih =>
    have assembled := ih fun index label found => by
      have below := (List.getElem?_eq_some_iff.mp found).1
      have earlier := defines index label (by rw [getElem?_append_left below, found])
      rwa [take_append_of_le_length (Nat.le_of_lt below)] at earlier
    have applied := assembled.apply operation fun {label} same => by
      have last := defines operations.length label (by simp [same])
      rwa [take_left] at last
    simpa [run] using applied

theorem encodable_of_emitted : ∀ instr ∈ emitted operations, instr.Encodable := by
  intro instr member
  obtain ⟨operation, _, member⟩ := mem_flatMap.mp member
  cases operation with
  | switch =>
    simp only [Operation.instructions] at member
    split at member
    · rename_i small
      rw [mem_singleton.mp member]
      exact small
    · cases member
  | emit | jump =>
    rw [mem_singleton.mp member]
    simp [Instruction.Encodable, targets]
  | _ => cases member

/-! ## What becomes of emitted code -/

namespace Assembled

variable (assembled : Assembled code place emitter)

include assembled

theorem defined_of_resolveFixups
    (allocated : ∀ instr ∈ code, ∀ label ∈ instr.targets, label < emitter.labels.size)
    (ran : emitter.resolveFixups = .ok resolved) :
    ∀ instr ∈ code, ∀ label ∈ instr.targets, ∃ index, place label = some index := by
  intro instr member label jumps
  obtain ⟨index, found⟩ := mem_iff_getElem?.mp member
  have here : (code.map (retarget JumpTarget.label))[index]? =
      some (instr.retarget .label) := by
    rw [getElem?_map, found]
    rfl
  obtain ⟨_, done⟩ := distanceTo_of_resolveFixups assembled.holds ran here
    (show JumpTarget.label label ∈ _ by simp [jumps])
  cases placed : place label with
  | some index => exact ⟨index, rfl⟩
  | none =>
    simp [distanceTo, Array.getD_eq_getD_getElem?,
      assembled.labels (allocated instr member label jumps), placed] at done

theorem labelled (short : position code code.length < 2 ^ 31)
    (encodable : ∀ instr ∈ code, instr.Encodable)
    (defined : ∀ instr ∈ code, ∀ label ∈ instr.targets, ∃ index, place label = some index) :
    Labelled (code.map (retarget .label)) emitter.labels fun label => (place label).getD 0 := by
  refine ⟨?_, ?_, ?_⟩
  · intro instr member _ jumps
    obtain ⟨original, listed, rfl⟩ := mem_map.mp member
    rw [targets_retarget] at jumps
    obtain ⟨label, used, rfl⟩ := mem_map.mp jumps
    obtain ⟨index, placed⟩ := defined original listed label used
    refine ⟨label, rfl, ?_⟩
    rw [Array.getD_eq_getD_getElem?, assembled.labels (assembled.places placed).1, placed,
      position_map_retarget]
    rfl
  · intro index instr found label _
    refine near_of_short (by rwa [position_map_retarget, length_map]) ?_ found
    rw [length_map]
    cases placed : place label with
    | none => exact Nat.zero_le _
    | some index => exact (assembled.places placed).2
  · intro instr member
    obtain ⟨original, listed, rfl⟩ := mem_map.mp member
    simpa [Instruction.Encodable] using encodable original listed

end Assembled

theorem Represents.load_of_finish {lowered : List (Instruction Nat)}
    (represents : Represents lowered marks emitter)
    (encodable : ∀ instr ∈ lowered, instr.Encodable) {signature : FunctionType}
    {unit : CodeUnit} (made : emitter.finish signature limit = .ok unit) :
    ∃ loaded, unit.load = .ok loaded ∧
      loaded.signature = signature ∧ loaded.localSlots = emitter.localSlots ∧
      loaded.code.toList = lowered.map (retarget (Represents.target marks)) ∧
      ∀ instr ∈ lowered, ∀ name ∈ instr.targets, ∃ index, marks.lookup name = some index := by
  rw [finish_eq_sealed] at made
  obtain ⟨resolved, ran, made⟩ := bind_eq_ok.mp made
  split at made
  · cases made
  · have defined : ∀ instr ∈ lowered, ∀ name ∈ instr.targets,
        ∃ index, marks.lookup name = some index := by
      intro instr member name jumps
      obtain ⟨index, found⟩ := mem_iff_getElem?.mp member
      obtain ⟨label, named⟩ :=
        Option.isSome_iff_exists.mp (represents.known instr member name jumps)
      have here : (emitter.labelled lowered)[index]? =
          some (instr.retarget fun name => .label (emitter.labelOf name)) := by
        rw [Emitter.labelled, getElem?_map, found]
        rfl
      obtain ⟨_, near⟩ := distanceTo_of_resolveFixups represents.code ran here
        (show JumpTarget.label label ∈ _ by simpa [labelOf, named] using
          ⟨name, jumps, by simp [named]⟩)
      cases marked : marks.lookup name with
      | some index => exact ⟨index, rfl⟩
      | none =>
        simp [distanceTo, Array.getD_eq_getD_getElem?, represents.placed named, marked] at near
    obtain ⟨place, labelled, _, code⟩ :=
      represents.exists_labelled defined (.inr ⟨resolved, ran⟩) encodable
    cases ran.symm.trans (resolveFixups_eq_ok represents.code labelled)
    exact ⟨_, (labelled.load_of_sealed made).2.2.1, rfl, rfl, code, defined⟩

theorem Labelled.loads_of_sealed
    (labelled : Labelled (code.map (retarget .label)) emitter.labels fun label =>
      (place label).getD 0) {signature : FunctionType} {unit : CodeUnit}
    (made : (emitter.unit signature (resolvedCode (code.map (retarget .label)) fun label =>
      (place label).getD 0).toArray).sealed = .ok unit) :
    unit.bytes.length = position code code.length ∧ ∃ loaded, unit.load = .ok loaded ∧
        loaded.code.toList = code.map (retarget fun label => (place label).getD 0) ∧
        ∀ instr ∈ code, ∀ label ∈ instr.targets, (place label).getD 0 < code.length := by
  obtain ⟨placed, bytes, done, _⟩ := labelled.load_of_sealed made
  refine ⟨?_, _, done, ?_, ?_⟩
  · rw [bytes, encodeAll_toArray, length_flatMap_encode, position_resolvedCode,
      position_map_retarget, resolvedCode, length_mapIdx, length_map]
  · simp only [List.map_map]
    refine map_congr_left fun instr _ => ?_
    rw [Function.comp_apply, retarget_retarget]
    rfl
  · intro instr member label jumps
    have inside := placed.inside (instr.retarget .label) (mem_map_of_mem member) label
      (by simpa using jumps)
    rwa [length_map] at inside

theorem Labelled.verification_of_last {label : Nat}
    (labelled : Labelled (code.map (retarget .label)) emitter.labels fun label =>
      (place label).getD 0) {signature : FunctionType} (member : instr ∈ code)
    (jumps : label ∈ instr.targets) (last : place label = some code.length) :
    ∃ fault, (emitter.unit signature (resolvedCode (code.map (retarget .label)) fun label =>
      (place label).getD 0).toArray).sealed = .error (.verification emitter.function fault) := by
  generalize outcome : (emitter.unit signature _).sealed = result
  cases result with
  | error fault =>
    obtain ⟨cause, rfl⟩ := verification_of_sealed outcome
    exact ⟨cause, rfl⟩
  | ok unit =>
    obtain ⟨_, _, _, _, inside⟩ := labelled.loads_of_sealed outcome
    have below := inside instr member label jumps
    simp [last] at below

namespace Assembled

variable (assembled : Assembled code place emitter)
  (labelled : Labelled (code.map (retarget .label)) emitter.labels fun label =>
    (place label).getD 0)

include assembled labelled

/-- What becomes of code whose labels are defined. -/
theorem finish_of_labelled (signature : FunctionType) (limit : Nat) :
    emitter.finish signature limit = if limit < position code code.length then
        .error (.codeTooLarge emitter.function (position code code.length) limit)
      else (emitter.unit signature (resolvedCode (code.map (retarget .label)) fun label =>
        (place label).getD 0).toArray).sealed := by
  rw [finish_eq_sealed, assembled.size, resolveFixups_eq_ok assembled.holds labelled]
  rfl

omit labelled in
theorem internal_of_undefined
    (allocated : ∀ instr ∈ code, ∀ label ∈ instr.targets, label < emitter.labels.size)
    (missing : ¬ ∀ instr ∈ code, ∀ label ∈ instr.targets,
      ∃ index, place label = some index) (signature : FunctionType) (limit : Nat) :
    ∃ fault, emitter.finish signature limit = .error (.internal fault) := by
  rw [finish_eq_sealed]
  cases ran : emitter.resolveFixups with
  | error fault =>
    obtain ⟨cause, rfl⟩ := internal_of_resolveFixups ran
    exact ⟨cause, rfl⟩
  | ok => exact absurd (assembled.defined_of_resolveFixups allocated ran) missing

end Assembled

/-- Every label that is used is defined. -/
def Emitter.Defined (operations : List Operation) : Prop :=
  ∀ instr ∈ emitted operations, ∀ label ∈ instr.targets,
    ∃ index, placeOf label operations = some index

/-- Emission, patching and loading agree. A unit is refused for its size exactly if all labels that
are used are defined and the total length of the code is above the limit, and the failure tells that
total. A unit that is finished has the bytes of the code that was emitted, and loads as that code,
in which the operand of each jump is the index of the first instruction behind its label. Labels
that are not defined are an internal fault; otherwise a label behind the last instruction fails the
check. -/
theorem finish_agrees {function localSlots : Nat}
    (regular : Regular (Emitter.new function localSlots) operations)
    (short : position (emitted operations) (emitted operations).length < 2 ^ 31)
    (signature : FunctionType) (limit : Nat) :
    let emitter := (Emitter.new function localSlots).run operations
    let code := emitted operations
    let total := position code code.length
    (∀ failed size bound, emitter.finish signature limit =
      .error (.codeTooLarge failed size bound) ↔
      Defined operations ∧ limit < total ∧
        failed = emitter.function ∧ size = total ∧ bound = limit) ∧
    (∀ unit, emitter.finish signature limit = .ok unit → unit.bytes.length = total ∧
      ∃ loaded, unit.load = .ok loaded ∧
        (relative loaded.code.toList).flatMap Instruction.encode = unit.bytes ∧
        loaded.code.toList =
          code.map (Instruction.retarget fun label => (placeOf label operations).getD 0) ∧
        ∀ instr ∈ code, ∀ label ∈ instr.targets,
          ∃ index < code.length, placeOf label operations = some index) ∧
    (¬ Defined operations → ∃ fault, emitter.finish signature limit = .error (.internal fault)) ∧
    (Defined operations → total ≤ limit → ∀ instr ∈ code, ∀ label ∈ instr.targets,
      placeOf label operations = some code.length →
        ∃ fault, emitter.finish signature limit =
          .error (.verification emitter.function fault)) := by
  intro emitter code total
  have assembled : Assembled code (placeOf · operations) emitter := assembled_run regular
  by_cases defined : Defined operations
  · have labelled := assembled.labelled short encodable_of_emitted defined
    rw [assembled.finish_of_labelled labelled]
    by_cases large : limit < total
    · rw [if_pos large]
      refine ⟨fun _ _ _ => ?_, fun _ made => ?_, fun missing => absurd defined missing,
        fun _ fits => absurd large (Nat.not_lt.mpr fits)⟩
      · simp [defined, large, total, code, eq_comm]
      · cases made
    · rw [if_neg large]
      refine ⟨fun _ _ _ => ⟨fun failed => ?_, fun ⟨_, above, _⟩ => absurd above large⟩,
        fun unit made => ?_, fun missing => absurd defined missing, fun _ _ _ member _ jumps last =>
          labelled.verification_of_last member jumps last⟩
      · obtain ⟨_, other⟩ := verification_of_sealed failed
        cases other
      · obtain ⟨size, loaded, done, same, inside⟩ := labelled.loads_of_sealed made
        refine ⟨size, loaded, done, encode_relative_of_load done, same, ?_⟩
        intro instr member label jumps
        obtain ⟨index, place⟩ := defined instr member label jumps
        have below := inside instr member label jumps
        rw [place] at below
        exact ⟨index, below, place⟩
  · obtain ⟨fault, failed⟩ := assembled.internal_of_undefined regular.jumps defined signature limit
    rw [failed]
    refine ⟨fun _ _ _ => ?_, fun _ made => ?_, fun _ => ⟨fault, rfl⟩, fun all => absurd all defined⟩
    · simp [defined]
    · cases made

/-- A loop with a way out: its label is defined in front of both jumps, that of the way out behind
them. -/
def loopOperations : List Operation :=
  [.allocate, .allocate, .define 0, .emit (.const32 1), .jump .zero 1, .jump .always 0, .define 1,
    .emit (.leave 0)]

theorem finish_agrees_loop :
    Regular (Emitter.new 0 0) loopOperations ∧
      position (emitted loopOperations) (emitted loopOperations).length < 2 ^ 31 ∧
      Defined loopOperations ∧
      ((Emitter.new 0 0).run loopOperations).finish ⟨[], []⟩ 17 = .error (.codeTooLarge 0 18 17) ∧
      ∃ unit loaded, ((Emitter.new 0 0).run loopOperations).finish ⟨[], []⟩ 18 = .ok unit ∧
        unit.load = .ok loaded ∧ loaded.code.toList =
          [.plain (.const32 1), .jump .zero 3, .jump .always 0, .plain (.leave 0)] := by
  have regular : Regular (new 0 0) loopOperations := by
    constructor
    · intro index label found
      rcases index with _ | _ | _ | _ | _ | _ | _ | _ | index <;> cases found <;> decide
    · decide
  have short : position (emitted loopOperations) (emitted loopOperations).length < 2 ^ 31 := by
    decide
  have places : ∀ instr ∈ emitted loopOperations, ∀ label ∈ instr.targets,
      (placeOf label loopOperations).isSome := by decide
  have defined : Defined loopOperations := fun instr member label jumps =>
    Option.isSome_iff_exists.mp (places instr member label jumps)
  have agrees := finish_agrees regular short ⟨[], []⟩
  refine ⟨regular, short, defined, ((agrees 17).1 0 18 17).mpr ⟨defined, by decide⟩, ?_⟩
  obtain ⟨unit, made, _⟩ := exists_ok (((new 0 0).run loopOperations).finish ⟨[], []⟩ 18)
    (fun _ => True) (by decide +kernel)
  obtain ⟨_, loaded, done, _, same, _⟩ := (agrees 18).2.1 unit made
  exact ⟨unit, loaded, made, done, same⟩

end TwinEngine.Machine
