import TwinEngine.Instantiation
import TwinEngine.Proofs.Lowering.Function

/-!
Contract: the programs that compiled modules are loaded as.

Owns: the units that pass calls on, and what stands for each function of a module that was compiled
and loaded.

A function has a unit of its own code, or a unit that passes its arguments on to the interpreter or
to an import.
-/

namespace TwinEngine.Lowering

open Machine hiding Instruction
open Typing
open Compilation.Progress (push)
open Machine.Instruction (encodedLength)

/-! ## Units that pass calls on -/

/-- Loads of slots from a slot on, two at a time. -/
def forwarding : Nat → Nat → List Action
  | 0, _ => []
  | 1, slot => [.load .one (UInt16.ofNat slot)]
  | count + 2, slot => .load .two (UInt16.ofNat slot) :: forwarding count (slot + 2)

theorem forwardSlots_eq (count slot : Nat) (emitter : Emitter) :
    forwardSlots count slot emitter = emitAll emitter (forwarding count slot) := by
  induction count, slot, emitter using forwardSlots.induct with
  | case1 => rfl
  | case2 => rfl
  | case3 count slot emitter ih =>
    rw [forwardSlots, ih]
    rfl

/-- The code of a unit that passes a call on. -/
def delegating (function : Nat) (type : FunctionType) (callee : Callee) (signature : UInt16) :
    List Action :=
  forwarding (argSlots type) 0 ++
    [.call callee (UInt32.ofNat function) signature, .leave (UInt16.ofNat (returnSlots type))]

/-- A unit passes its arguments on to a function of its type. -/
structure Delegates (unit : LoadedUnit) (function : Nat) (type : FunctionType) (callee : Callee) :
    Prop where
  signature : unit.signature = type
  localSlots : unit.localSlots = argSlots type
  code : ∃ signature, Pooled unit.signatures signature type ∧
    unit.code.toList = plain (delegating function type callee signature)

theorem argSlots_le (type : FunctionType) : argSlots type ≤ maxParamSlots := by
  unfold argSlots Convention.of
  split
  · rename_i convention
    split at convention
    · cases convention
    · omega
  · decide

section Delegates

variable {unit : LoadedUnit} {function : Nat} {type : FunctionType} {callee : Callee}

/-- Slots are loaded one after the other. -/
theorem runs_forwarding (count slot : Nat) (inside : slot + count ≤ unit.localSlots)
    (small : slot + count ≤ maxParamSlots) (goes : next (.plain (slot + count))) :
    Runs unit lands next (plain (forwarding count slot)) (.plain slot) := by
  have exact_ : ∀ place, place ≤ maxParamSlots → (UInt16.ofNat place).toNat = place := by
    intro place few
    rw [UInt16.toNat_ofNat', Nat.mod_eq_of_lt]
    simp only [maxParamSlots] at few
    omega
  induction count, slot using forwarding.induct with
  | case1 slot => exact goes
  | case2 slot =>
    refine Runs.action ⟨?_, rfl⟩ goes
    rw [exact_ slot (by omega)]
    omega
  | case3 count slot ih =>
    have same : slot + 2 + count = slot + (count + 2) := by omega
    refine Runs.action ⟨?_, 0, 2, slot, rfl, rfl, rfl⟩
      (ih (by omega) (by omega) (by rw [same]; exact goes))
    intro _ there
    cases there
    rw [exact_ slot (by omega)]
    simp only [Width.slots]
    omega

/-- What the frames of a unit without jumps hold. -/
theorem tracked_of_runs {segment : Segment} (code : unit.code.toList = segment)
    (runs : Runs unit (fun _ _ => False) (fun _ => False) segment (.entry unit.signature)) :
    ∃ stances, Tracked unit stances := by
  obtain ⟨held, length, first, flow⟩ := runs.annotates
  refine ⟨fun index => held[index]?.join, ?_, ?_⟩
  · rcases first rfl with here | ⟨_, absurd⟩
    · rw [here]
      rfl
    · exact absurd.elim
  · intro index _ known
    have here := Option.join_eq_some_iff.mp known
    have inside := lt_length here
    rw [length] at inside
    have listed := List.getElem?_eq_getElem inside
    obtain ⟨after, steps, jumps, goes⟩ := flow listed here
    refine ⟨_, after, by rw [← Array.getElem?_toList, code, listed], steps,
      fun name member => (jumps name member).elim, fun on => ?_⟩
    rcases goes on with there | ⟨_, absurd⟩
    · rw [there]
      rfl
    · exact absurd.elim

theorem Delegates.exists_tracked (delegates : Delegates unit function type callee) :
    ∃ stances, Tracked unit stances := by
  obtain ⟨signature, pooled, code⟩ := delegates.code
  refine tracked_of_runs code ?_
  rw [delegates.signature, delegating, plain, List.map_append]
  refine Runs.append ?_
  have leaves : Runs unit (fun _ _ => False) (fun _ => False)
      (plain [.call callee (UInt32.ofNat function) signature,
        .leave (UInt16.ofNat (returnSlots type))]) (.calling type 0) := by
    have narrow : (UInt16.ofNat (returnSlots type)).toNat = returnSlots unit.signature := by
      have := returnSlots_le type
      rw [UInt16.toNat_ofNat', Nat.mod_eq_of_lt (by omega), delegates.signature]
    refine Runs.action ⟨type, 0, pooled, rfl, rfl⟩ (Runs.stop ⟨narrow, 0, ?_, rfl⟩ rfl)
    rw [delegates.signature]
  unfold Stance.entry
  unfold Stance.calling at leaves
  have inside := delegates.localSlots
  have small := argSlots_le type
  cases convention : Convention.of type with
  | slots =>
    rw [convention] at leaves
    have count : argSlots type = type.paramSlots := by rw [argSlots, convention]
    refine runs_forwarding (argSlots type) 0 (by omega) (by omega) ?_
    rw [count]
    exact leaves
  | boxed =>
    rw [convention] at leaves
    have count : argSlots type = 1 := by rw [argSlots, convention]
    rw [count]
    exact Runs.action ⟨by rw [inside, count]; decide, rfl, rfl⟩ leaves

/-- Bytes of loads of slots, two at a time. -/
theorem size_forwarding (count slot : Nat) :
    ((plain (forwarding count slot)).map encodedLength).sum = 3 * ((count + 1) / 2) := by
  induction count, slot using forwarding.induct with
  | case1 slot => rfl
  | case2 slot => rfl
  | case3 count slot ih =>
    rw [forwarding, plain, List.map_cons, List.map_cons, List.sum_cons, ← plain, ih]
    simp only [encodedLength, Action.operandLength]
    omega

/-- Most bytes of a unit that passes a call on. -/
def maxDelegationSize : Nat := 391

theorem size_delegating (function : Nat) (type : FunctionType) (callee : Callee)
    (signature : UInt16) : ((plain (delegating function type callee signature)).map
      encodedLength).sum ≤ maxDelegationSize := by
  have few := argSlots_le type
  rw [delegating, plain, List.map_append, List.map_append, List.sum_append, ← plain,
    size_forwarding]
  simp only [maxParamSlots, maxDelegationSize, List.map_cons, List.map_nil, List.sum_cons,
    List.sum_nil, encodedLength, Action.operandLength] at few ⊢
  omega

/-- What is finished as a unit that passes a call on. -/
structure Delegating (function : Nat) (type : FunctionType) (callee : Callee) (emitter : Emitter)
    (labelled : List (Machine.Instruction JumpTarget)) (place : Nat → Nat) : Prop where
  named : emitter.function = function
  localSlots : emitter.localSlots = argSlots type
  size : emitter.size ≤ maxDelegationSize
  places : emitter.Places labelled place
  narrow : Narrow labelled place
  code : ∃ signature, Pooled emitter.signatures signature type ∧
    labelled.map (Machine.Instruction.retarget (indexOf place)) =
      plain (delegating function type callee signature)

/-- A unit that passes a call on is finished alike for every limit. -/
theorem delegation_eq_finish (function : Nat) (type : FunctionType) (callee : Callee) :
    ∃ emitter labelled place, Delegating function type callee emitter labelled place ∧
      ∀ limit, delegation function type callee limit = emitter.finish type limit := by
  have fresh : Building (argSlots type) [] [] (.new function (argSlots type)) :=
    ⟨represents_new function (argSlots type), Nat.zero_le _, rfl⟩
  rcases fresh.signature type with
    ⟨signature, grown, found, grows, extends_, slots, _, pooled⟩ | refused
  · have emitted := grows.emitAll (delegating function type callee signature)
    have same := sameFrame_emitAll grown (delegating function type callee signature)
    rw [List.nil_append] at emitted
    have small : (emitAll grown (delegating function type callee signature)).size ≤
        maxDelegationSize := by
      rw [emitted.represents.size, position, List.take_length]
      exact size_delegating function type callee signature
    have jumpless : ∀ lowered ∈ plain (delegating function type callee signature),
        lowered.targets = [] := by
      intro lowered member
      obtain ⟨_, _, rfl⟩ := List.mem_map.mp member
      rfl
    have short := Nat.lt_of_le_of_lt small (by decide : maxDelegationSize < 2 ^ 31)
    obtain ⟨labelled, place, places, narrow, loaded⟩ := emitted.represents.exists_places
      (fun lowered member _ jumps => by rw [jumpless lowered member] at jumps; cases jumps)
      (.inl short)
      (fun lowered member => by simp [Machine.Instruction.Encodable, jumpless lowered member])
    refine ⟨_, labelled, place,
      ⟨same.function.trans extends_.function, same.localSlots.trans slots, small,
      places, narrow short, signature, ?_, ?_⟩, fun limit => ?_⟩
    · rw [same.signatures]
      exact pooled
    · rw [loaded, plain, List.map_map]
      rfl
    · have narrow : ¬ returnSlots type > 65535 := by
        have := returnSlots_le type
        omega
      unfold delegation
      simp only [found, bind, Except.bind, forwardSlots_eq, narrow, if_false]
      rw [delegating, ← emitAll_append]
      rfl
  · simp [Emitter.signature, Emitter.new] at refused

/-- Every unit that passes a call on is loaded as such, and passes the check with the depth that is
written on it. -/
theorem load_of_delegation (delegated : delegation function type callee limit = .ok made) :
    ∃ loaded, made.load = .ok loaded ∧ loaded.verify = .ok loaded.maxStack ∧
      loaded.function = function ∧ Delegates loaded function type callee := by
  obtain ⟨emitter, labelled, place, delegating, finishes⟩ :=
    delegation_eq_finish function type callee
  rw [finishes limit] at delegated
  obtain ⟨greatest, loaded, verified⟩ := load_of_finish delegating.places delegated
  exact ⟨_, loaded, (LoadedUnit.verify_maxStack _ greatest).trans verified, delegating.named, rfl,
    delegating.localSlots, delegating.code⟩

theorem delegation_eq_ok (function : Nat) (type : FunctionType) (callee : Callee) :
    ∃ unit, delegation function type callee maxCodeSize = .ok unit ∧ unit.function = function := by
  obtain ⟨emitter, labelled, place, delegating, finishes⟩ :=
    delegation_eq_finish function type callee
  obtain ⟨signature, pooled, code⟩ := delegating.code
  have delegates : Delegates (loadedUnit emitter
      (labelled.map (Machine.Instruction.retarget (indexOf place))) type 0) function type callee :=
    ⟨rfl, delegating.localSlots, signature, pooled, code⟩
  obtain ⟨_, tracked⟩ := delegates.exists_tracked
  obtain ⟨_, verified⟩ := tracked.verify_eq_ok
  have small := delegating.size
  rw [finishes, finish_eq delegating.places delegating.narrow, if_neg, verified]
  · exact ⟨_, rfl, delegating.named⟩
  · simp only [maxDelegationSize, maxCodeSize] at small ⊢
    omega

end Delegates

/-! ## Compiled modules -/

theorem functionsFrom_eq_ok {source : Module} {options : CompileOptions} {count function : Nat}
    {progress made : Compilation.Progress} (size : progress.units.size = function)
    (sizes : progress.resolutions.size = function)
    (compiled : Compilation.functionsFrom source options count function progress = .ok made) :
    made.units.size = function + count ∧ made.resolutions.size = function + count ∧
      (∀ index, index < function → made.units[index]? = progress.units[index]? ∧
        made.resolutions[index]? = progress.resolutions[index]?) ∧
      ∀ index, function ≤ index → index < function + count →
        ∃ result, source.compileFunction options index = .ok result ∧
          made.units[index]? = some result.unit ∧
          made.resolutions[index]? = some result.resolution := by
  induction count generalizing function progress with
  | zero =>
    cases compiled
    exact ⟨size, sizes, fun _ _ => ⟨rfl, rfl⟩, fun index above below => absurd below (by omega)⟩
  | succ count ih =>
    rw [Compilation.functionsFrom] at compiled
    split at compiled
    · rename_i result first
      have pushed : (progress.push result).units.size = function + 1 := by
        simp [push, size]
      have resolved : (progress.push result).resolutions.size = function + 1 := by
        simp [push, sizes]
      obtain ⟨units, resolutions, kept, rest⟩ := ih pushed resolved compiled
      refine ⟨by omega, by omega, fun index below => ?_, fun index above below => ?_⟩
      · obtain ⟨unit, resolution⟩ := kept index (by omega)
        rw [unit, resolution]
        simp only [push]
        rw [Array.getElem?_push_lt (by omega), Array.getElem?_push_lt (by omega)]
        simp [size, sizes, below]
      · by_cases same : index = function
        · subst same
          obtain ⟨unit, resolution⟩ := kept index (by omega)
          refine ⟨result, first, ?_, ?_⟩
          · rw [unit]
            simp [push, ← size]
          · rw [resolution]
            simp [push, ← sizes]
        · exact rest index (by omega) (by omega)
    · cases compiled

theorem compile_eq_ok {source : Module} (made : (source.compile options).outcome = .ok compiled) :
    compiled.source = source ∧ compiled.dispatch = source.dispatchTables ∧
      compiled.units.size = source.functionCount ∧
      compiled.resolutions.size = source.functionCount ∧
      ∀ function, function < source.functionCount →
        ∃ result, source.compileFunction options function = .ok result ∧
          compiled.units[function]? = some result.unit ∧
          compiled.resolutions[function]? = some result.resolution := by
  unfold Module.compile at made
  split at made
  · cases made
  · cases made
  · split at made
    · cases made
    · rename_i progress ran
      cases made
      obtain ⟨units, resolutions, _, each⟩ :=
        @functionsFrom_eq_ok source options source.functionCount 0 ⟨#[], #[], []⟩ progress rfl rfl
          ran
      rw [Nat.zero_add] at units resolutions each
      exact ⟨rfl, rfl, units, resolutions, fun function below =>
        each function (Nat.zero_le _) below⟩

theorem program_of_load (loaded : Program.load compiled = .ok program) :
    program.resolutions = compiled.resolutions ∧ program.dispatch = compiled.dispatch ∧
      program.units.size = compiled.units.size ∧
      ∀ {function : Nat} {unit : CodeUnit}, compiled.units[function]? = some unit →
        ∃ made, unit.load = .ok made ∧ program.units[function]? = some made := by
  obtain ⟨units, ran, made⟩ := bind_eq_ok.mp loaded
  cases made
  refine ⟨rfl, rfl, length_of_mapM ran, fun found => ?_⟩
  obtain ⟨made, there, same⟩ := image_of_mapM ran (Array.getElem?_toList.trans found)
  exact ⟨made, same, by simpa using there⟩

/-- What stands for a function in a program: its own code, or a unit that passes calls on. -/
inductive StandsFor (source : Module) (sections : Binary.Sections) (function : Nat)
    (unit : LoadedUnit) : Resolution → Prop
  | compiled {type : FunctionType} {body : Body} : source.functionType function = some type →
      source.body function = some body → unit.signature = type →
      Nonempty (Translation source type body (predicted sections function) unit) →
      StandsFor source sections function unit .compiled
  | interpreted {type : FunctionType} {body : Body} : source.functionType function = some type →
      source.body function = some body → Delegates unit function type .interpreted →
      StandsFor source sections function unit .interpreted
  | imported {type : FunctionType} : source.functionType function = some type →
      function < source.importCount → Delegates unit function type .imported →
      StandsFor source sections function unit .host

/-- A program that stands for the functions of a module. -/
structure Runnable (source : Module) (sections : Binary.Sections) (program : Program) : Prop where
  dispatch : program.dispatch = source.dispatchTables
  units : program.units.size = source.functionCount
  stands : ∀ {function : Nat}, function < source.functionCount →
    ∃ unit resolution, program.units[function]? = some unit ∧
      program.resolutions[function]? = some resolution ∧
      unit.verify = .ok unit.maxStack ∧ StandsFor source sections function unit resolution

end TwinEngine.Lowering
