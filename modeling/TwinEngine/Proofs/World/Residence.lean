import TwinEngine.Proofs.World.Evolution

/-!
Contract: where running code lives.

Owns: that code runs, and waits, only in threads of instances that are live, and is the code of
those instances.

A start function that fails takes its instance and every later one out of the store. Whatever waits
beneath it was there before these instances were made, so it belongs to instances that stay.
-/

namespace TwinEngine

open World

/-! ## Threads and their instances -/

/-- A thread belongs to a live instance of the module, whose compiled code is the thread's. -/
def Store.Houses (store : Store) (thread : Thread) (source : Module) : Prop :=
  ∃ live, store.instances[thread.owner]? = some live ∧ live.source = source ∧
    ∀ {program : Program}, thread.program = some program → live.engine = .compiled program

/-- The instances of one store are instances of the other one too, in the same places. -/
def Store.Within (smaller larger : Store) : Prop :=
  ∀ (id : Nat) (live : Instance), smaller.instances[id]? = some live →
    ∃ later, larger.instances[id]? = some later ∧ live.Continues later

namespace Store

variable {smaller larger store : Store} {thread : Thread}

theorem Within.truncate (within : smaller.Within larger) (count : Nat) :
    (smaller.truncate count).Within (larger.truncate count) := by
  intro id live found
  rw [getElem?_truncate] at found ⊢
  split at found
  · rename_i below
    rw [if_pos below]
    exact within id live found
  · cases found

theorem within_of_truncate (store : Store) (count : Nat) : (store.truncate count).Within store := by
  intro _ live found
  rw [getElem?_truncate] at found
  split at found
  · exact ⟨live, found, .refl _⟩
  · cases found

theorem within_push (store : Store) (live : Instance) :
    store.Within { store with instances := store.instances.push live } := by
  intro _ other found
  refine ⟨other, ?_, .refl _⟩
  rw [Array.getElem?_push, if_neg (Nat.ne_of_lt (lt_size found)), found]

theorem instances_truncate_push (store : Store) (live : Instance) :
    (truncate { store with instances := store.instances.push live }
      store.instances.size).instances = store.instances := by
  simp [truncate]

theorem Holds.within (holds : smaller.Holds larger) : smaller.Within larger :=
  fun _ _ => holds.instances

theorem Houses.within (houses : smaller.Houses thread source) (within : smaller.Within larger) :
    larger.Houses thread source := by
  obtain ⟨_, found, same, runs⟩ := houses
  obtain ⟨later, here, continues⟩ := within _ _ found
  exact ⟨later, here, continues.source.trans same, fun has => continues.engine.trans (runs has)⟩

theorem Houses.congr (houses : store.Houses thread source) (owner : other.owner = thread.owner)
    (program : other.program = thread.program) : store.Houses other source := by
  obtain ⟨live, found, same, runs⟩ := houses
  exact ⟨live, by rw [owner, found], same, fun has => runs (program ▸ has)⟩

end Store

namespace World

/-- Whatever waits in a thread is code of the thread's instance. What waits beneath a start function
is at home in the store without the instance that starts. -/
def Rooted : Store → Thread → List Context → Prop
  | _, _, [] => True
  | store, thread, .unit _ :: rest | store, thread, .unitValues _ _ :: rest =>
    (thread.program.isSome ∧ ∃ source, store.Houses thread source) ∧ Rooted store thread rest
  | store, thread, .body frame :: rest =>
    store.Houses thread frame.source ∧ Rooted store thread rest
  | store, _, .threadEnd outer _ :: rest => Rooted store outer rest
  | store, thread, .starting id :: rest => Rooted (store.truncate id) thread rest
  | store, thread, .unitEntry _ _ :: rest | store, thread, .bodyEntry _ _ :: rest
  | store, thread, .reentryEnd :: rest | store, thread, .hostResult _ :: rest
  | store, thread, .hostCall _ :: rest | store, thread, .hostInvoke _ :: rest
  | store, thread, .hostInstantiate _ :: rest => Rooted store thread rest

/-- What runs is code of the thread's instance. -/
def Housed (world : World) : Prop :=
  match world.control with
  | .unit _ => world.thread.program.isSome ∧ ∃ source, world.store.Houses world.thread source
  | .body frame => world.store.Houses world.thread frame.source
  | _ => True

/-- Code runs and waits only in live instances. -/
structure Resident (world : World) : Prop where
  waits : Rooted world.store world.thread world.stack
  runs : world.Housed

variable {store : Store} {thread other : Thread} {stack : List Context}

/-- Larger stores and threads of the same instance keep what waits in order. -/
theorem Rooted.mono (rooted : Rooted smaller thread stack) (within : smaller.Within larger)
    (owner : other.owner = thread.owner) (program : other.program = thread.program) :
    Rooted larger other stack := by
  induction stack generalizing smaller larger thread other with
  | nil => trivial
  | cons context rest ih =>
    cases context with
    | unit | unitValues =>
      exact ⟨⟨program ▸ rooted.1.1, rooted.1.2.imp fun _ houses =>
        (houses.within within).congr owner program⟩, ih rooted.2 within owner program⟩
    | body => exact ⟨(rooted.1.within within).congr owner program, ih rooted.2 within owner program⟩
    | starting id =>
      have beneath : Rooted (smaller.truncate id) thread rest := rooted
      exact ih beneath (within.truncate id) owner program
    | threadEnd outer =>
      have beneath : Rooted smaller outer rest := rooted
      exact ih beneath within rfl rfl
    | _ =>
      have beneath : Rooted smaller thread rest := rooted
      exact ih beneath within owner program

theorem Rooted.within (rooted : Rooted smaller thread stack) (within : smaller.Within larger) :
    Rooted larger thread stack :=
  rooted.mono within rfl rfl

/-- Only the instance of a thread and its code matter. -/
theorem Rooted.congr (rooted : Rooted store thread stack) (owner : other.owner = thread.owner)
    (program : other.program = thread.program) : Rooted store other stack :=
  rooted.mono (fun _ live found => ⟨live, found, .refl _⟩) owner program

theorem Rooted.of_instances {other : Store} (rooted : Rooted store thread stack)
    (same : other.instances = store.instances) : Rooted other thread stack :=
  rooted.within (Store.Holds.of_eq same).within

theorem Rooted.tail {context : Context} (rooted : Rooted store thread (context :: rest))
    (other : ∀ outer depth, context ≠ .threadEnd outer depth) : Rooted store thread rest := by
  cases context with
  | unit | unitValues | body => exact rooted.2
  | threadEnd outer depth => exact absurd rfl (other outer depth)
  | starting id =>
    have beneath : Rooted (store.truncate id) thread rest := rooted
    exact beneath.within (store.within_of_truncate id)
  | _ => exact rooted

/-- What goes on with a result is code of a live instance. -/
theorem resident_receive (trace : List HostCall) (result : Delivery)
    (rooted : Rooted store thread (context :: stack)) :
    (receive store thread stack trace context result).Resident := by
  cases context with
  | threadEnd outer =>
    have beneath : Rooted store outer stack := rooted
    exact ⟨beneath.of_instances rfl, trivial⟩
  | reentryEnd =>
    have beneath : Rooted store thread stack := rooted
    exact ⟨beneath.of_instances rfl, trivial⟩
  | hostCall | hostInvoke | hostInstantiate => cases result <;> exact ⟨rooted, trivial⟩
  | starting =>
    -- A start function that traps takes its instance away.
    cases result with
    | trap => exact ⟨rooted, trivial⟩
    | _ => exact ⟨rooted.tail nofun, trivial⟩
  | unit => cases result <;> first | exact ⟨rooted.2, rooted.1⟩ | exact ⟨rooted.2, trivial⟩
  | unitValues =>
    cases result <;>
      first | exact ⟨rooted.2.congr rfl rfl, rooted.1⟩ | exact ⟨rooted.2, trivial⟩
  | hostResult | unitEntry | bodyEntry =>
    have beneath : Rooted store thread stack := rooted
    cases result
    all_goals
      simp only [receive]
      try split
      all_goals exact ⟨beneath.congr rfl rfl, trivial⟩
  | body =>
    have left : Rooted (leaveFrame store) thread stack := rooted.2.of_instances rfl
    cases result
    all_goals
      simp only [receive]
      try split
      all_goals
        first
        | exact ⟨rooted.2.congr rfl rfl, rooted.1⟩
        | exact ⟨rooted.2, trivial⟩
        | exact ⟨left.congr rfl rfl, trivial⟩

section Resident

variable (trace : List HostCall)

section

variable (function : Nat)

include function

theorem resident_enterUnit (rooted : Rooted store thread stack)
    (houses : ∃ source, store.Houses thread source) (waits : Rooted store thread (wait :: stack)) :
    (enterUnit store thread stack trace function wait).Resident := by
  unfold enterUnit
  split
  · exact ⟨rooted, trivial⟩
  · cases found : thread.program.bind (·.units[function]?) with
    | none => exact ⟨rooted, trivial⟩
    | some =>
      obtain ⟨program, has, _⟩ := Option.bind_eq_some_iff.mp found
      have same : Rooted { store with depth := store.depth + 1 } thread (wait :: stack) :=
        waits.of_instances rfl
      exact ⟨same.congr rfl rfl, by rw [Option.isSome_iff_exists]; exact ⟨program, has⟩, houses⟩

theorem resident_startUnit (args : List Value)
    (rooted : Rooted store thread stack) (houses : ∃ source, store.Houses thread source) :
    (startUnit store thread stack trace function args).Resident := by
  unfold startUnit
  split
  · exact ⟨rooted, trivial⟩
  · have moved (boxes : Machine.Boxes) (slots : Stack UInt32) :
        Rooted store { thread with boxes, slots } stack := rooted.congr rfl rfl
    exact resident_enterUnit trace function (moved _ _) houses (moved _ _)

theorem resident_enterBody (rooted : Rooted store thread stack)
    (houses : store.Houses thread source) (waits : Rooted store thread (wait :: stack)) :
    (enterBody store thread stack trace source function wait).Resident := by
  unfold enterBody
  split
  · exact ⟨rooted, trivial⟩
  · dsimp only
    cases entered : Interpreted.enter source function thread.payloads thread.controls with
    | error => exact ⟨rooted.congr rfl rfl, trivial⟩
    | ok entry =>
      have same : Rooted { store with depth := store.depth + 1 } thread (wait :: stack) :=
        waits.of_instances rfl
      have kept : entry.1.source = source := by
        unfold Interpreted.enter at entered
        split at entered
        · cases entered
          rfl
        · cases entered
      refine ⟨same.congr rfl rfl, ?_⟩
      rw [← kept] at houses
      exact houses

variable (args : List Value) (rooted : Rooted store thread stack)

include args rooted

theorem resident_startBody (runs : ∀ {live program}, store.instances[thread.owner]? = some live →
      thread.program = some program → live.engine = .compiled program) :
    (startBody store thread stack trace function args).Resident := by
  unfold startBody Store.look
  cases found : store.instances[thread.owner]? with
  | none => exact ⟨rooted, trivial⟩
  | some live =>
    have moved (payloads : Stack UInt64) : Rooted store { thread with payloads } stack :=
      rooted.congr rfl rfl
    exact resident_enterBody trace function (moved _)
      ⟨live, found, rfl, fun has => runs found has⟩ (moved _)

theorem resident_startEngine {id : Nat} (found : store.instances[id]? = some live) :
    (startEngine store thread stack trace live.engine id function args).Resident := by
  unfold startEngine
  cases runs : live.engine with
  | compiled program =>
    have beneath : Rooted store { owner := id, program := some program }
        (.threadEnd thread store.depth :: stack) := rooted
    exact resident_startUnit trace function args beneath
      ⟨live.source, live, found, rfl, fun has => by cases has; exact runs⟩
  | interpreted =>
    have beneath : Rooted store { owner := id } (.threadEnd thread store.depth :: stack) := rooted
    simp only [Store.look, found]
    split
    · exact ⟨rooted, trivial⟩
    · exact resident_startBody trace function args beneath fun _ absurd => by cases absurd

end

theorem resident_startCall (id function : Nat) (args : List Value)
    (rooted : Rooted store thread stack) :
    (startCall store thread stack trace id function args).Resident := by
  unfold startCall
  cases found : store.instances[id]? with
  | none => exact ⟨rooted, trivial⟩
  | some =>
    have beneath : Rooted { store with reentry := store.reentry + 1 } thread
        (.reentryEnd :: stack) := @Rooted.of_instances _ _ stack _ rooted rfl
    dsimp only
    repeat' split
    all_goals
      first
      | exact ⟨rooted, trivial⟩
      | exact resident_startEngine trace function args beneath found

theorem resident_startImport (id function : Nat) (args : List Value)
    (rooted : Rooted store thread stack) :
    (startImport store thread stack trace id function args).Resident := by
  have beneath : Rooted { store with reentry := store.reentry + 1 } thread stack :=
    rooted.of_instances rfl
  unfold startImport
  repeat' split
  all_goals
    first
    | exact ⟨rooted, trivial⟩
    | exact ⟨beneath, trivial⟩

theorem resident_startInstance (source : Module) (imports : Imports HostProgram)
    (engine : Except Error Engine) (rooted : Rooted store thread stack) :
    (startInstance store thread stack trace source imports engine).Resident := by
  rw [startInstance_eq]
  split
  · exact ⟨rooted, trivial⟩
  · rename_i live _
    split
    · exact ⟨rooted.within (store.within_push live), trivial⟩
    · -- The store without the new instance is the store as it was.
      have beneath := rooted.of_instances (store.instances_truncate_push live)
      exact ⟨beneath, trivial⟩

theorem resident_moveUnit (move : Except Trap Compiled.Move) (rooted : Rooted store thread stack)
    (program : thread.program.isSome) (houses : ∃ source, store.Houses thread source) :
    (moveUnit store thread stack trace move).Resident := by
  have waits (frame : Compiled.Frame) : Rooted store thread (.unit frame :: stack) :=
    ⟨⟨program, houses⟩, rooted⟩
  have waitsValues (frame : Compiled.Frame) (type : FunctionType) :
      Rooted store thread (.unitValues frame type :: stack) := ⟨⟨program, houses⟩, rooted⟩
  obtain ⟨source, live, found, same, runs⟩ := houses
  unfold moveUnit
  split
  · exact ⟨rooted, trivial⟩
  · exact ⟨rooted, program, source, live, found, same, runs⟩
  · exact resident_enterUnit trace _ rooted ⟨source, live, found, same, runs⟩ (waits _)
  · have beneath : Rooted (leaveFrame store) thread stack := rooted.of_instances rfl
    exact ⟨beneath, trivial⟩
  · dsimp only
    split
    · refine resident_startBody trace _ _ (waitsValues _ _) fun here has => ?_
      cases found.symm.trans here
      exact runs has
    · exact ⟨waitsValues _ _, trivial⟩
    · exact ⟨waitsValues _ _, trivial⟩

theorem resident_moveBody (move : Except Trap Interpreted.Move)
    (rooted : Rooted store thread stack) (houses : store.Houses thread source)
    (stays : ∀ {next frame}, move = .ok next → next.frame? = some frame → frame.source = source) :
    (moveBody store thread stack trace move).Resident := by
  have waits {next : Interpreted.Move} {frame : Interpreted.Frame} (moves : move = .ok next)
      (goes : next.frame? = some frame) : store.Houses thread frame.source := by
    rw [stays moves goes]
    exact houses
  unfold moveBody
  split
  · exact ⟨rooted, trivial⟩
  · exact ⟨rooted, waits rfl rfl⟩
  · exact resident_enterBody trace _ rooted (waits rfl rfl) ⟨waits rfl rfl, rooted⟩
  · have beneath : Rooted (leaveFrame store) thread stack := rooted.of_instances rfl
    exact ⟨beneath, trivial⟩
  · split
    · exact resident_startUnit trace _ _ ⟨waits rfl rfl, rooted⟩ ⟨source, houses⟩
    · exact ⟨⟨waits rfl rfl, rooted⟩, trivial⟩
  · exact ⟨⟨waits rfl rfl, rooted⟩, trivial⟩
  · exact ⟨⟨waits rfl rfl, rooted⟩, trivial⟩

theorem resident_stepHost (program : HostProgram) (rooted : Rooted store thread stack) :
    (stepHost store thread stack trace program).Resident := by
  cases program with
  | finish outcome => cases outcome <;> exact ⟨rooted, trivial⟩
  | call | observe => exact ⟨rooted, trivial⟩
  | interrupt => exact ⟨rooted.of_instances rfl, trivial⟩
  | invoke id _ _ next =>
    unfold stepHost
    dsimp only
    split <;> exact ⟨rooted, trivial⟩
  | instantiate source imports engine next | instantiateCompiled compiled imports next =>
    have beneath : Rooted store thread (.hostInstantiate next :: stack) := rooted
    exact resident_startInstance trace _ _ _ beneath
  | changeMemory id change next =>
    unfold stepHost
    dsimp only
    split
    · exact ⟨rooted, trivial⟩
    · have continues := store.continues_access id (Instance.gentle_changeMemory change).lasting
      exact ⟨rooted.within continues.holds.within, trivial⟩

end Resident

/-- A step keeps all code in live instances. -/
theorem Resident.step {world : World} (resident : world.Resident) : world.step.Resident := by
  obtain ⟨store, ⟨owner, program, boxes, slots, payloads, controls⟩, control, stack, trace⟩ := world
  obtain ⟨waits, runs⟩ := resident
  cases control with
  | unit frame =>
    let scene : Compiled.Scene :=
      ⟨owner, (program.map Program.dispatch).getD #[], boxes, slots, store⟩
    have stays := Compiled.stays_step scene frame
    have within := stays.store.holds.within
    exact resident_moveUnit trace _ ((waits.within within).congr stays.owner rfl) runs.1
      (runs.2.imp fun _ houses => (houses.within within).congr stays.owner rfl)
  | body frame =>
    let scene : Interpreted.Scene := ⟨owner, payloads, controls, store⟩
    have stays := Interpreted.stays_step scene frame
    have within := stays.store.holds.within
    have houses : store.Houses _ frame.source := runs
    exact resident_moveBody trace _ ((waits.within within).congr stays.owner rfl)
      ((houses.within within).congr stays.owner rfl) stays.source
  | host program => exact resident_stepHost trace program waits
  | call id function args => exact resident_startCall trace id function args waits
  | callImport id function args => exact resident_startImport trace id function args waits
  | done result =>
    cases stack with
    | nil => exact ⟨trivial, trivial⟩
    | cons => exact resident_receive trace result waits

theorem resident_idle (store : Store) : (idle store).Resident := ⟨trivial, trivial⟩

theorem Resident.next (resident : before.Resident) (next : Next before after) : after.Resident := by
  cases next with
  | step => exact resident.step
  | call => exact ⟨trivial, trivial⟩
  | instantiate | instantiateCompiled => exact resident_startInstance [] _ _ _ trivial
  | interrupt => exact ⟨resident.waits.of_instances rfl, resident.runs⟩

/-- All code that ever runs in a store runs in live instances. -/
theorem Resident.reaches (resident : before.Resident) (reaches : Reaches before after) :
    after.Resident := by
  induction reaches with
  | refl => exact resident
  | tail _ next ih => exact ih.next next

end World

end TwinEngine
