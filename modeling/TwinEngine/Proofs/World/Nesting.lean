import TwinEngine.Proofs.World.References
import TwinEngine.Proofs.World.Soundness

/-!
Contract: calls leave what waits beneath them as it was.

Owns: that a step does not look at what waits further down, what is left on the stacks of a thread
once a part of a run has given its result, and that this is what the part began with.

A part of a run is a run of its own on a shorter stack. What it stands on is the ground.
-/

namespace TwinEngine.World

open Machine (Boxes)

/-! ## Longer stacks -/

def onto (bottom : List Context) (world : World) : World :=
  { world with stack := world.stack ++ bottom }

section Onto

variable (store : Store) (thread : Thread) (stack bottom : List Context) (trace : List HostCall)

theorem receive_onto (context : Context) (result : Delivery) :
    receive store thread (stack ++ bottom) trace context result =
      (receive store thread stack trace context result).onto bottom := by
  cases context <;> cases result <;> simp only [receive] <;> try split
  all_goals rfl

/-- What starts a call does not look at what waits. -/
theorem starts_onto (id function : Nat) (args : List Value) :
    startUnit store thread (stack ++ bottom) trace function args =
        (startUnit store thread stack trace function args).onto bottom ∧
      startBody store thread (stack ++ bottom) trace function args =
        (startBody store thread stack trace function args).onto bottom ∧
      startCall store thread (stack ++ bottom) trace id function args =
        (startCall store thread stack trace id function args).onto bottom ∧
      startImport store thread (stack ++ bottom) trace id function args =
        (startImport store thread stack trace id function args).onto bottom := by
  dsimp only [startCall, startEngine, startUnit, enterUnit, startBody, enterBody, startImport]
  refine ⟨?_, ?_, ?_, ?_⟩
  all_goals
    repeat' split
    all_goals rfl

theorem startInstance_onto (source : Module) (imports : Imports HostProgram)
    (engine : Except Error Engine) :
    startInstance store thread (stack ++ bottom) trace source imports engine =
      (startInstance store thread stack trace source imports engine).onto bottom := by
  rw [startInstance_eq, startInstance_eq]
  split
  · rfl
  · split <;> rfl

theorem moves_onto : (∀ move, moveUnit store thread (stack ++ bottom) trace move =
      (moveUnit store thread stack trace move).onto bottom) ∧
    ∀ move, moveBody store thread (stack ++ bottom) trace move =
      (moveBody store thread stack trace move).onto bottom := by
  dsimp only [moveUnit, moveBody, startUnit, enterUnit, startBody, enterBody]
  constructor
  all_goals
    intro move
    repeat' split
    all_goals rfl

theorem stepHost_onto (program : HostProgram) :
    stepHost store thread (stack ++ bottom) trace program =
      (stepHost store thread stack trace program).onto bottom := by
  cases program with
  | finish outcome => cases outcome <;> rfl
  | call | observe | interrupt => rfl
  | instantiate _ _ _ next | instantiateCompiled _ _ next =>
    exact startInstance_onto _ _ (.hostInstantiate next :: stack) _ _ _ _ _
  | invoke | changeMemory =>
    simp only [stepHost]
    split <;> rfl

end Onto

def Handed (bottom : List Context) (world : World) : Prop :=
  world.stack = bottom ∧ ∃ result, world.control = .done result

variable {bottom : List Context} {world : World}

/-- A step does not look at what waits at the bottom, unless it is handed a result. -/
theorem step_onto (bottom : List Context) (busy : ¬ Handed [] world) :
    step (world.onto bottom) = (step world).onto bottom := by
  obtain ⟨_, _, control, stack, _⟩ := world
  cases control with
  | unit => exact (moves_onto _ _ _ _ _).1 _
  | body => exact (moves_onto _ _ _ _ _).2 _
  | host => exact stepHost_onto _ _ _ _ _ _
  | call => exact (starts_onto _ _ _ _ _ _ _ _).2.2.1
  | callImport => exact (starts_onto _ _ _ _ _ _ _ _).2.2.2
  | done result =>
    cases stack with
    | nil => exact absurd ⟨rfl, result, rfl⟩ busy
    | cons => exact receive_onto _ _ _ _ _ _ _

theorem handed_onto : Handed bottom (world.onto bottom) ↔ Handed [] world := by
  simp [Handed, onto]

/-- Nor do any number of steps. -/
theorem iterate_onto
    (busy : ∀ earlier < count, ¬ Handed bottom (step^[earlier] (world.onto bottom))) :
    step^[count] (world.onto bottom) = (step^[count] world).onto bottom := by
  induction count with
  | zero => rfl
  | succ count ih =>
    have same := ih fun earlier _ => busy earlier (by omega)
    have open_ := busy count (Nat.lt_succ_self _)
    rw [same, handed_onto] at open_
    rw [Function.iterate_succ_apply', Function.iterate_succ_apply', same, step_onto bottom open_]

/-! ## Parts of a run -/

section Parts

variable {reading : Module → Binary.Sections} {world : World}

/-- What a part of a run that is to give values hands over: a trap, or values of the kinds that are
expected, on the stacks that it began with. -/
theorem Sound.handed {thread : Thread}
    (sound : Sound reading ⟨footing thread, .values kinds⟩ world) (handed : Handed [] world) :
    (∃ trap, world.control = .done (.trap trap)) ∨
      ∃ values, world.control = .done (.values values) ∧ values.map Value.kind = kinds ∧
        world.thread.boxes.Idle ∧ footing world.thread = footing thread := by
  obtain ⟨_, _, control, _⟩ := world
  obtain ⟨_, poised⟩ := sound
  obtain ⟨empty, _, done⟩ := handed
  subst empty done
  cases poised with
  | values idle waits =>
    cases waits with
    | ground _ same expects =>
      cases expects
      exact .inr ⟨_, rfl, rfl, idle, same⟩
  | trap trap => exact .inl ⟨trap, rfl⟩
  | finished _ waits | unitReturned _ _ waits | bodyReturned _ _ _ waits | created _ _ waits =>
    cases waits with
    | ground _ _ expects => cases expects

def unitStep (world : World) (frame : Compiled.Frame) :
    Except Trap Compiled.Move × Compiled.Scene :=
  Compiled.step ⟨world.thread.owner, (world.thread.program.map Program.dispatch).getD #[],
    world.thread.boxes, world.thread.slots, world.store⟩ frame

/-- Whether a trap is on its way. -/
def trapped (world : World) : Bool :=
  match world.control with
  | .done (.trap _) => true
  | _ => false

end Parts

end TwinEngine.World
