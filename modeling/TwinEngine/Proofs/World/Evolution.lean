import Mathlib.Logic.Relation
import TwinEngine.Proofs.Instantiation
import TwinEngine.Proofs.Validation
import TwinEngine.World

/-!
Contract: how the instances of a store come and go in a run.

Owns: the operations that start runs, the relation between a state of a run and the next one, and
that a step drops the last instances or adds one, and leaves the others what they are.
-/

namespace TwinEngine

/-! ## Instances that stay -/

variable {before after : Store} {id : Nat}

namespace Store

/-- The same instances in their places, whatever has become of their state. -/
structure Holds (before after : Store) : Prop where
  size : after.instances.size = before.instances.size
  instances : ∀ {id : Nat} {live : Instance}, before.instances[id]? = some live →
    ∃ later, after.instances[id]? = some later ∧ live.Continues later

theorem Continues.holds (continues : before.Continues after) : before.Holds after :=
  ⟨continues.size, continues.instances⟩

theorem Holds.of_eq (same : after.instances = before.instances) : before.Holds after :=
  ⟨by rw [same], fun found => ⟨_, same ▸ found, .refl _⟩⟩

theorem Holds.trans {first second third : Store} (left : first.Holds second)
    (right : second.Holds third) : first.Holds third := by
  refine ⟨right.size.trans left.size, fun found => ?_⟩
  obtain ⟨_, there, continues⟩ := left.instances found
  obtain ⟨last, here, further⟩ := right.instances there
  exact ⟨last, here, continues.trans further⟩

theorem Holds.exists_before (holds : before.Holds after)
    (found : after.instances[id]? = some later) :
    ∃ live, before.instances[id]? = some live ∧ live.Continues later := by
  have inside := lt_size found
  rw [holds.size] at inside
  obtain ⟨_, there, continues⟩ := holds.instances (Array.getElem?_eq_getElem inside)
  cases found.symm.trans there
  exact ⟨_, Array.getElem?_eq_getElem inside, continues⟩

theorem getElem?_truncate (store : Store) (count id : Nat) :
    (store.truncate count).instances[id]? = if id < count then store.instances[id]? else none := by
  rw [truncate, Array.take_eq_extract, Array.getElem?_extract, Nat.zero_add, Nat.sub_zero]
  by_cases inside : id < store.instances.size
  · by_cases below : id < count
    · rw [if_pos below, if_pos (Nat.lt_min.mpr ⟨below, inside⟩)]
    · rw [if_neg below, if_neg (fun less => below (Nat.lt_min.mp less).1)]
  · rw [Array.getElem?_eq_none (Nat.not_lt.mp inside), ite_self, ite_self]

theorem size_truncate (store : Store) (count : Nat) :
    (store.truncate count).instances.size = min count store.instances.size := by
  simp [truncate]

end Store

/-! ## Instances that are dropped -/

open Store

/-- The instances from a number on are dropped and the others stay. If any are dropped, the start
function of the first of them was among what waits. -/
def Drops (stack : List Context) (before after : Store) : Prop :=
  ∃ count, (before.truncate count).Holds after ∧
    (count < before.instances.size → .starting count ∈ stack)

namespace Drops

variable {stack : List Context}

theorem of_holds (holds : before.Holds after) : Drops stack before after :=
  ⟨before.instances.size, (Holds.of_eq (by simp [truncate])).trans holds,
    fun less => absurd less (Nat.lt_irrefl _)⟩

theorem of_eq (same : after.instances = before.instances) : Drops stack before after :=
  of_holds (.of_eq same)

theorem truncate (waits : .starting id ∈ stack) : Drops stack before (before.truncate id) :=
  ⟨id, .of_eq rfl, fun _ => waits⟩

variable (drops : Drops stack before after)

include drops

theorem mono (inside : ∀ {id}, .starting id ∈ stack → .starting id ∈ larger) :
    Drops larger before after := by
  obtain ⟨count, holds, waits⟩ := drops
  exact ⟨count, holds, fun less => inside (waits less)⟩

/-- An instance stays, or it is dropped because of a start function that waited. -/
theorem stays_or_falls (found : before.instances[id]? = some live) :
    (∃ later, after.instances[id]? = some later ∧ live.Continues later) ∨
      ∃ failed ≤ id, .starting failed ∈ stack ∧ after.instances.size = failed := by
  obtain ⟨count, holds, waits⟩ := drops
  have inside := lt_size found
  rcases Nat.lt_or_ge id count with below | above
  · exact .inl (holds.instances (by rw [getElem?_truncate, if_pos below, found]))
  · have less := Nat.lt_of_le_of_lt above inside
    refine .inr ⟨count, above, waits less, ?_⟩
    rw [holds.size, size_truncate, Nat.min_eq_left (Nat.le_of_lt less)]

theorem size_le : after.instances.size ≤ before.instances.size := by
  obtain ⟨_, holds, _⟩ := drops
  rw [holds.size, size_truncate]
  exact Nat.min_le_right _ _

end Drops

/-! ## Steps -/

namespace World

variable (store : Store) (thread : Thread) (stack : List Context) (trace : List HostCall)

/-- Giving a result to what waits adds no instance. -/
theorem drops_receive (context : Context) (result : Delivery) :
    Drops (context :: stack) store (receive store thread stack trace context result).store := by
  fun_cases receive store thread stack trace context result
  all_goals
    first
    | exact .of_eq rfl
    | exact .truncate (List.mem_cons_self ..)

/-- Calls and what code asks for make no instance. -/
theorem instances_calls : (∀ id function args,
      (startCall store thread stack trace id function args).store.instances = store.instances ∧
      (startImport store thread stack trace id function args).store.instances = store.instances) ∧
    (∀ move, (moveUnit store thread stack trace move).store.instances = store.instances) ∧
    ∀ move, (moveBody store thread stack trace move).store.instances = store.instances := by
  dsimp only [startCall, startEngine, startUnit, enterUnit, startBody, enterBody, startImport,
    moveUnit, moveBody]
  refine ⟨fun id function args => ⟨?_, ?_⟩, fun move => ?_, fun move => ?_⟩
  all_goals
    repeat' split
    all_goals rfl

/-- One more instance is made, or none, and then some may be dropped. -/
def Evolves (stack : List Context) (before after : Store) : Prop :=
  Drops stack before after ∨
    before.instances.size < maxInstances ∧
      ∃ live, Drops stack { before with instances := before.instances.push live } after

variable {stack} {live : Instance}

theorem Evolves.mono (evolves : Evolves stack before after)
    (inside : ∀ {id}, .starting id ∈ stack → .starting id ∈ larger) :
    Evolves larger before after := by
  rcases evolves with drops | ⟨room, live, drops⟩
  · exact .inl (drops.mono inside)
  · exact .inr ⟨room, live, drops.mono inside⟩

theorem Evolves.of_cons (evolves : Evolves (context :: stack) before after)
    (other : ∀ id, context ≠ .starting id) : Evolves stack before after :=
  evolves.mono fun waits => (List.mem_cons.mp waits).resolve_left (other _).symm

theorem Evolves.stays_or_falls (evolves : Evolves stack before after)
    (found : before.instances[id]? = some live) :
    (∃ later, after.instances[id]? = some later ∧ live.Continues later) ∨
      ∃ failed ≤ id, .starting failed ∈ stack ∧ after.instances.size = failed := by
  rcases evolves with drops | ⟨_, _, drops⟩
  · exact drops.stays_or_falls found
  · refine drops.stays_or_falls ?_
    rw [Array.getElem?_push, if_neg (Nat.ne_of_lt (lt_size found)), found]

theorem Evolves.size_le (evolves : Evolves stack before after)
    (room : before.instances.size ≤ maxInstances) : after.instances.size ≤ maxInstances := by
  rcases evolves with drops | ⟨more, _, drops⟩
  · exact Nat.le_trans drops.size_le room
  · refine Nat.le_trans drops.size_le ?_
    rw [Array.size_push]
    exact more

variable (stack)

/-- A start is that of the instance which is left in the store. If none is left, then the store is
as it was. -/
theorem startInstance_eq (source : Module) (imports : Imports HostProgram)
    (engine : Except Error Engine) : startInstance store thread stack trace source imports engine =
      match engine >>= store.prepare source imports with
      | .error error => ⟨store, thread, .done (.created (.error error)), stack, trace⟩
      | .ok live =>
        match live.source.start with
        | none =>
          ⟨{ store with instances := store.instances.push live }, thread,
            .done (.created (.ok store.instances.size)), stack, trace⟩
        | some function =>
          ⟨{ store with instances := store.instances.push live }, thread,
            .call store.instances.size function [], .starting store.instances.size :: stack,
              trace⟩ := by
  cases engine with
  | error error => rfl
  | ok engine =>
    cases allocated : store.allocate source imports engine with
    | error error => simp [startInstance, Store.prepare, allocated, bind, Except.bind]
    | ok fresh =>
      simp only [startInstance, bind, Except.bind, allocated, store.applySegments_push]
      cases applied : Instance.applySegments source store.instances.size fresh with
      | mk result live =>
        cases result with
        | error error =>
          simp only [Store.prepare, allocated, applied, bind, Except.bind, store.truncate_push]
        | ok _ =>
          have made : store.prepare source imports engine = .ok live := by
            simp only [Store.prepare, allocated, applied, bind, Except.bind]
          have same := Store.source_of_prepare made
          cases starts : source.start <;> simp only [made, same, starts]

theorem evolves_startInstance (source : Module) (imports : Imports HostProgram)
    (engine : Except Error Engine) :
    Evolves stack store (startInstance store thread stack trace source imports engine).store := by
  rw [startInstance_eq]
  split
  · exact .inl (.of_eq rfl)
  · rename_i live made
    obtain ⟨_, _, prepared⟩ := bind_eq_ok.mp made
    refine .inr ⟨Store.size_lt_of_prepare prepared, live, ?_⟩
    split
    · exact .of_eq rfl
    · exact .of_eq rfl

theorem evolves_stepHost (program : HostProgram) :
    Evolves stack store (stepHost store thread stack trace program).store := by
  cases program with
  | finish outcome => cases outcome <;> exact .inl (.of_eq rfl)
  | call | observe | interrupt => exact .inl (.of_eq rfl)
  | invoke id _ _ next =>
    unfold stepHost
    dsimp only
    split <;> exact .inl (.of_eq rfl)
  | instantiate source imports engine next | instantiateCompiled compiled imports next =>
    exact (evolves_startInstance store thread (.hostInstantiate next :: stack) _ _ _ _).of_cons
      nofun
  | changeMemory id change next =>
    unfold stepHost
    dsimp only
    split
    · exact .inl (.of_eq rfl)
    · exact .inl (.of_holds (store.continues_access id
        (Instance.gentle_changeMemory change).lasting).holds)

/-- A step drops the last instances or adds one, and leaves the others what they are. -/
theorem evolves_step (world : World) : Evolves world.stack world.store world.step.store := by
  obtain ⟨store, ⟨owner, program, boxes, slots, payloads, controls⟩, control, stack, _⟩ := world
  cases control with
  | unit frame =>
    have continues := (Compiled.stays_step
      ⟨owner, (program.map Program.dispatch).getD #[], boxes, slots, store⟩ frame).store
    exact .inl (.of_holds (continues.holds.trans (.of_eq ((instances_calls _ _ _ _).2.1 _))))
  | body frame =>
    have continues := (Interpreted.stays_step ⟨owner, payloads, controls, store⟩ frame).store
    exact .inl (.of_holds (continues.holds.trans (.of_eq ((instances_calls _ _ _ _).2.2 _))))
  | host program => exact evolves_stepHost _ _ _ _ _
  | call id function args => exact .inl (.of_eq ((instances_calls _ _ _ _).1 _ _ _).1)
  | callImport id function args => exact .inl (.of_eq ((instances_calls _ _ _ _).1 _ _ _).2)
  | done =>
    cases stack with
    | nil => exact .inl (.of_eq rfl)
    | cons => exact .inl (drops_receive _ _ _ _ _ _)

/-! ## Operations -/

def idle (store : Store) : World := ⟨store, {}, .done .returned, [], []⟩

/-- From one moment of a store to the next: what runs takes a step, or nothing runs and an operation
starts. -/
inductive Next (world : World) : World → Prop where
  | step (busy : world.result? = none) : Next world world.step
  | call (ended : world.result?.isSome) (id function : Nat) (args : List Value) :
      Next world ⟨world.store, {}, .call id function args, [], []⟩
  | instantiate (ended : world.result?.isSome) (source : Module) (imports : Imports HostProgram)
      (engine : EngineOptions) :
      Next world (startInstance world.store {} [] [] source imports (engine.engine source))
  | instantiateCompiled (ended : world.result?.isSome) (compiled : CompiledModule)
      (imports : Imports HostProgram) :
      Next world (startInstance world.store {} [] [] compiled.source imports
        ((Program.load compiled).map .compiled))
  | interrupt : Next world { world with store := world.store.requestInterrupt }

/-- From one moment of a store to a later one. -/
abbrev Reaches : World → World → Prop := Relation.ReflTransGen Next

theorem evolves_next {before after : World} (next : Next before after) :
    Evolves before.stack before.store after.store := by
  cases next with
  | step => exact evolves_step before
  | call | interrupt => exact .inl (.of_eq rfl)
  | instantiate _ source imports =>
    exact (evolves_startInstance before.store {} [] [] source imports _).mono nofun
  | instantiateCompiled _ compiled imports =>
    exact (evolves_startInstance before.store {} [] [] compiled.source imports _).mono nofun

end World

end TwinEngine
