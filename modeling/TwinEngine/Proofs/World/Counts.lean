import Mathlib.Logic.Function.Iterate
import TwinEngine.Proofs.World.Evolution

/-!
Contract: the counts of live frames and of open entries in a run.

Owns: that at every moment of an operation both counts are those from before it plus what runs and
waits now, that they keep to the limits, and that they are back where they were when it ends.

A trap passes by the frames of its thread without counting them down. The end of the thread puts
the count back, so until then it may only be too high.
-/

namespace TwinEngine

namespace Context

def isFrame : Context → Bool
  | .unit _ | .unitValues _ _ | .body _ => true
  | _ => false

def isEntry : Context → Bool
  | .reentryEnd => true
  | _ => false

/-- Something that only ever waits inside a thread. -/
def isInner : Context → Bool
  | .unit _ | .unitValues _ _ | .unitEntry _ _ | .body _ | .bodyEntry _ _ => true
  | _ => false

theorem isInner_of_isFrame {context : Context} (frame : context.isFrame) : context.isInner := by
  cases context <;> first | rfl | cases frame

theorem isEntry_of_isInner {context : Context} (inner : context.isInner) :
    context.isEntry = false := by
  cases context <;> first | rfl | cases inner

end Context

/-- Something has given its results. -/
def Delivery.isReturn : Delivery → Bool
  | .returned | .values _ => true
  | _ => false

namespace World

variable {base store : Store} {world : World} {context : Context} {fuel : Nat}

def frames (stack : List Context) : Nat := stack.countP Context.isFrame

def entries (stack : List Context) : Nat := stack.countP Context.isEntry

def InThread : List Context → Prop
  | [] => False
  | .threadEnd _ _ :: _ => True
  | context :: rest => context.isInner ∧ InThread rest

/-- What a context asks of what is beneath it: code waits in a thread, and a thread knows how many
frames there were before it. -/
def Fits (base : Nat) (context : Context) (rest : List Context) : Prop :=
  (context.isInner → InThread rest) ∧
    ∀ {outer : Thread} {depth : Nat}, context = .threadEnd outer depth → depth = base + frames rest

def Balanced (base : Nat) : List Context → Prop
  | [] => True
  | context :: rest => Fits base context rest ∧ Balanced base rest

theorem InThread.cons (inside : InThread rest) (inner : context.isInner) :
    InThread (context :: rest) := by
  cases context <;> first | exact ⟨inner, inside⟩ | cases inner

theorem fits_inner {base : Nat} (inside : InThread rest) (inner : context.isInner) :
    Fits base context rest :=
  ⟨fun _ => inside, fun same => by subst same; cases inner⟩

/-- What runs counts as what waits does. -/
def held (world : World) : List Context :=
  match world.control with
  | .unit frame => .unit frame :: world.stack
  | .body frame => .body frame :: world.stack
  | _ => world.stack

/-- A trap is on its way through the frames of a thread. -/
def Unwinds (world : World) : Prop :=
  (∃ trap, world.control = .done (.trap trap)) ∧ InThread world.stack

/-! ## Counts and stacks -/

/-- What holds of the counts whether or not a trap unwinds a thread. -/
structure Bounded (base store : Store) (stack : List Context) : Prop where
  limits : store.limits = base.limits
  balanced : Balanced base.depth stack
  reentry : store.reentry = base.reentry + entries stack
  nested : store.reentry ≤ max base.reentry base.limits.reentry
  least : base.depth + frames stack ≤ store.depth
  deep : store.depth ≤ max base.depth base.limits.callDepth

/-- The counts are what the stack says. -/
structure Exact (base store : Store) (stack : List Context) : Prop
    extends Bounded base store stack where
  depth : store.depth = base.depth + frames stack

/-- The counts are what the stack says, unless a trap unwinds a thread. -/
def Counted (base : Store) (world : World) : Prop :=
  Exact base world.store world.held ∨ Bounded base world.store world.stack ∧ world.Unwinds

section Stacks

variable {base store other : Store} {stack : List Context} {context : Context}

theorem Bounded.same (bounded : Bounded base store stack) (limits : other.limits = store.limits)
    (depth : other.depth = store.depth) (reentry : other.reentry = store.reentry) :
    Bounded base other stack where
  limits := limits.trans bounded.limits
  balanced := bounded.balanced
  reentry := reentry.trans bounded.reentry
  nested := reentry ▸ bounded.nested
  least := depth ▸ bounded.least
  deep := depth ▸ bounded.deep

theorem Exact.same (exact : Exact base store stack) (limits : other.limits = store.limits)
    (depth : other.depth = store.depth) (reentry : other.reentry = store.reentry) :
    Exact base other stack :=
  ⟨exact.toBounded.same limits depth reentry, depth.trans exact.depth⟩

theorem Exact.continues (exact : Exact base store stack) (continues : store.Continues other) :
    Exact base other stack :=
  exact.same continues.limits continues.depth continues.reentry

theorem frames_cons (context : Context) (stack : List Context) :
    frames (context :: stack) = frames stack + if context.isFrame then 1 else 0 :=
  List.countP_cons

theorem frames_same (stack : List Context) (frame : context.isFrame = false) :
    frames (context :: stack) = frames stack := by
  rw [frames_cons, frame]
  rfl

theorem entries_cons (context : Context) (stack : List Context) :
    entries (context :: stack) = entries stack + if context.isEntry then 1 else 0 :=
  List.countP_cons

theorem entries_same (stack : List Context) (entry : context.isEntry = false) :
    entries (context :: stack) = entries stack := by
  rw [entries_cons, entry]
  rfl

/-- What counts as nothing may be put on top. -/
theorem Exact.push (exact : Exact base store stack) (fits : Fits base.depth context stack)
    (frame : context.isFrame = false) (entry : context.isEntry = false) :
    Exact base store (context :: stack) := by
  have sameFrames := frames_same stack frame
  have sameEntries := entries_same stack entry
  exact
    { exact with
      balanced := ⟨fits, exact.balanced⟩
      reentry := sameEntries ▸ exact.reentry
      least := sameFrames ▸ exact.least
      depth := sameFrames ▸ exact.depth }

/-- What counts as nothing may be taken away. -/
theorem Exact.pop (exact : Exact base store (context :: stack))
    (frame : context.isFrame = false) (entry : context.isEntry = false) :
    Exact base store stack := by
  have sameFrames := frames_same stack frame
  have sameEntries := entries_same stack entry
  exact
    { exact with
      balanced := exact.balanced.2
      reentry := sameEntries ▸ exact.reentry
      least := sameFrames ▸ exact.least
      depth := sameFrames ▸ exact.depth }

/-- One frame may stand for another. -/
theorem Exact.swap {next : Context} (exact : Exact base store (context :: stack))
    (frame : context.isFrame) (other : next.isFrame) : Exact base store (next :: stack) := by
  have sameFrames : frames (next :: stack) = frames (context :: stack) := by
    rw [frames_cons, frames_cons, frame, other]
  have inner := Context.isInner_of_isFrame frame
  have otherInner := Context.isInner_of_isFrame other
  have sameEntries : entries (next :: stack) = entries (context :: stack) := by
    rw [entries_same _ (Context.isEntry_of_isInner inner),
      entries_same _ (Context.isEntry_of_isInner otherInner)]
  exact
    { exact with
      balanced := ⟨fits_inner (exact.balanced.1.1 inner) otherInner, exact.balanced.2⟩
      reentry := sameEntries ▸ exact.reentry
      least := sameFrames ▸ exact.least
      depth := sameFrames ▸ exact.depth }

/-- A trap passes by what waits in a thread and leaves the counts. -/
theorem Bounded.pass (bounded : Bounded base store (context :: stack)) (inner : context.isInner) :
    Bounded base store stack ∧ InThread stack := by
  have sameEntries := entries_same stack (Context.isEntry_of_isInner inner)
  have fewer := bounded.least
  rw [frames_cons] at fewer
  refine ⟨?_, bounded.balanced.1.1 inner⟩
  exact
    { bounded with
      balanced := bounded.balanced.2
      reentry := sameEntries ▸ bounded.reentry
      least := by omega }

/-- A frame that ends is no longer counted. -/
theorem Exact.leave (exact : Exact base store (context :: stack)) (frame : context.isFrame) :
    Exact base (leaveFrame store) stack := by
  have bounded := (exact.toBounded.pass (Context.isInner_of_isFrame frame)).1
  have one := exact.depth
  rw [frames_cons, if_pos frame] at one
  have depth : (leaveFrame store).depth = base.depth + frames stack := by
    unfold leaveFrame
    dsimp only
    omega
  exact
    { bounded with
      least := Nat.le_of_eq depth.symm
      deep := Nat.le_trans (Nat.sub_le _ _) bounded.deep
      depth }

theorem Exact.enter (exact : Exact base store stack) (inside : InThread stack)
    (room : ¬ tooDeep store) (frame : context.isFrame) :
    Exact base { store with depth := store.depth + 1 } (context :: stack) := by
  have inner := Context.isInner_of_isFrame frame
  have sameEntries := entries_same stack (Context.isEntry_of_isInner inner)
  have below : store.depth < store.limits.callDepth := by
    simpa [tooDeep] using room
  have depth : store.depth + 1 = base.depth + frames (context :: stack) := by
    rw [frames_cons, if_pos frame, exact.depth]
    rfl
  exact
    { exact with
      balanced := ⟨fits_inner inside inner, exact.balanced⟩
      reentry := sameEntries ▸ exact.reentry
      least := Nat.le_of_eq depth.symm
      deep := Nat.le_trans (exact.limits ▸ below) (Nat.le_max_right _ _)
      depth }

/-- An entry is counted, if there is room for it. -/
theorem Exact.nest (exact : Exact base store stack) (room : ¬ tooNested store) :
    Exact base { store with reentry := store.reentry + 1 } (.reentryEnd :: stack) := by
  have below : store.reentry < store.limits.reentry := by simpa [tooNested] using room
  exact
    { exact with
      balanced := ⟨⟨nofun, nofun⟩, exact.balanced⟩
      reentry := by
        rw [entries_cons, exact.reentry]
        rfl
      nested := Nat.le_trans (exact.limits ▸ below) (Nat.le_max_right _ _) }

/-- An entry that ends is no longer counted. -/
theorem Exact.unnest (exact : Exact base store (.reentryEnd :: stack)) :
    Exact base { store with reentry := store.reentry - 1 } stack := by
  have one := exact.reentry
  rw [entries_cons] at one
  exact
    { exact with
      balanced := exact.balanced.2
      reentry := by
        change store.reentry = base.reentry + (entries stack + 1) at one
        change store.reentry - 1 = _
        omega
      nested := Nat.le_trans (Nat.sub_le _ _) exact.nested }

/-- The end of a thread puts the count of frames back. -/
theorem Bounded.close (bounded : Bounded base store (.threadEnd outer depth :: stack)) :
    Exact base { store with depth } stack := by
  have before : depth = base.depth + frames stack := bounded.balanced.1.2 rfl
  have least : depth ≤ store.depth := before ▸ bounded.least
  exact
    { bounded with
      balanced := bounded.balanced.2
      least := Nat.le_of_eq before.symm
      deep := Nat.le_trans least bounded.deep
      depth := before }

theorem Exact.begin (exact : Exact base store stack) (outer : Thread) :
    Exact base store (.threadEnd outer store.depth :: stack) :=
  exact.push ⟨nofun, fun same => by cases same; exact exact.depth⟩ rfl rfl

theorem Exact.trap {thread : Thread} {trap : Trap} {trace : List HostCall}
    (exact : Exact base store (context :: stack)) (inner : context.isInner) :
    Counted base ⟨store, thread, .done (.trap trap), stack, trace⟩ := by
  obtain ⟨bounded, inside⟩ := exact.toBounded.pass inner
  exact .inr ⟨bounded, ⟨trap, rfl⟩, inside⟩

end Stacks

/-! ## Steps -/

section Steps

variable {base store : Store} {thread : Thread} {stack : List Context} {trace : List HostCall}

theorem counted_receive (result : Delivery) (exact : Exact base store (context :: stack)) :
    Counted base (receive store thread stack trace context result) := by
  cases context with
  | threadEnd => exact .inl exact.toBounded.close
  | reentryEnd => exact .inl exact.unnest
  | hostCall | hostInvoke | hostInstantiate => cases result <;> exact .inl (exact.pop rfl rfl)
  | hostResult | unitEntry | bodyEntry =>
    cases result
    all_goals
      simp only [receive]
      try split
      all_goals exact .inl (exact.pop rfl rfl)
  | starting => cases result <;> exact .inl ((exact.pop rfl rfl).same rfl rfl rfl)
  | unit => cases result <;> first | exact .inl exact | exact exact.trap rfl
  | unitValues => cases result <;> first | exact .inl (exact.swap rfl rfl) | exact exact.trap rfl
  | body =>
    cases result
    all_goals
      simp only [receive]
      try split
      all_goals
        first
        | exact .inl (exact.leave rfl)
        | exact .inl exact
        | exact exact.trap rfl

theorem counted_unwind (bounded : Bounded base store (context :: stack))
    (inside : InThread (context :: stack)) :
    Counted base (receive store thread stack trace context (.trap trap)) := by
  cases context with
  | threadEnd => exact .inl bounded.close
  | unit | unitValues | unitEntry | body | bodyEntry =>
    obtain ⟨beneath, further⟩ := bounded.pass rfl
    exact .inr ⟨beneath, ⟨trap, rfl⟩, further⟩
  | _ => cases inside.1

theorem counted_startEngine (engine : Engine) (id function : Nat) (args : List Value)
    (exact : Exact base store stack) :
    Counted base (startEngine store thread stack trace engine id function args) := by
  have begun := exact.begin thread
  dsimp only [startEngine, startUnit, enterUnit, startBody, enterBody]
  repeat' split
  all_goals
    first
    | exact .inl exact
    | exact .inl begun
    | exact .inl ((begun.push (fits_inner trivial rfl) rfl rfl).enter ⟨rfl, trivial⟩
        (by assumption) rfl)

theorem counted_startCall (id function : Nat) (args : List Value) (exact : Exact base store stack) :
    Counted base (startCall store thread stack trace id function args) := by
  unfold startCall
  repeat' split
  all_goals
    first
    | exact .inl exact
    | exact counted_startEngine _ id function args (exact.nest (by assumption))

theorem counted_startImport (id function : Nat) (args : List Value)
    (exact : Exact base store stack) :
    Counted base (startImport store thread stack trace id function args) := by
  unfold startImport
  repeat' split
  all_goals
    first
    | exact .inl exact
    | exact .inl ((exact.nest (by assumption)).push ⟨nofun, nofun⟩ rfl rfl)

theorem counted_startInstance (source : Module) (imports : Imports HostProgram)
    (engine : Except Error Engine) (exact : Exact base store stack) :
    Counted base (startInstance store thread stack trace source imports engine) := by
  rw [startInstance_eq]
  split
  · exact .inl exact
  · have more (instances : Array Instance) : Exact base { store with instances } stack :=
      exact.same rfl rfl rfl
    split
    · exact .inl (more _)
    · exact .inl ((more _).push ⟨nofun, nofun⟩ rfl rfl)

theorem counted_moves : (∀ {frame} move, Exact base store (.unit frame :: stack) →
      Counted base (moveUnit store thread stack trace move)) ∧
    ∀ {frame} move, Exact base store (.body frame :: stack) →
      Counted base (moveBody store thread stack trace move) := by
  constructor
  all_goals
    intro frame move exact
    have inside := exact.balanced.1.1 rfl
    dsimp only [moveUnit, moveBody, startUnit, enterUnit, startBody, enterBody]
    repeat' split
    all_goals
      first
      | exact exact.trap rfl
      | exact .inl (exact.swap rfl rfl)
      | exact .inl (exact.leave rfl)
      | exact .inl ((exact.swap rfl rfl).enter (inside.cons rfl) (by assumption) rfl)
      | exact .inl (((exact.swap rfl rfl).push (fits_inner (inside.cons rfl) rfl) rfl rfl).enter
          ((inside.cons rfl).cons rfl) (by assumption) rfl)

theorem counted_stepHost (program : HostProgram) (exact : Exact base store stack) :
    Counted base (stepHost store thread stack trace program) := by
  have waits {context : Context} (fits : Fits base.depth context stack)
      (frame : context.isFrame = false) (entry : context.isEntry = false) :=
    exact.push fits frame entry
  cases program with
  | finish outcome => cases outcome <;> exact .inl exact
  | call => exact .inl (waits ⟨nofun, nofun⟩ rfl rfl)
  | observe => exact .inl exact
  | interrupt => exact .inl (exact.same rfl rfl rfl)
  | invoke =>
    unfold stepHost
    dsimp only
    split
    · exact .inl exact
    · exact .inl (waits ⟨nofun, nofun⟩ rfl rfl)
  | instantiate | instantiateCompiled =>
    exact counted_startInstance _ _ _ (waits ⟨nofun, nofun⟩ rfl rfl)
  | changeMemory id change =>
    unfold stepHost
    dsimp only
    split
    · exact .inl exact
    · exact .inl
        (exact.continues (store.continues_access id (Instance.gentle_changeMemory change).lasting))

end Steps

theorem Counted.step (counted : Counted base world) : Counted base world.step := by
  obtain ⟨store, ⟨owner, program, boxes, slots, payloads, controls⟩, control, stack, _⟩ := world
  rcases counted with exact | ⟨bounded, ⟨_, falls⟩, inside⟩
  · cases control with
    | unit frame =>
      have continues := (Compiled.stays_step
        ⟨owner, (program.map Program.dispatch).getD #[], boxes, slots, store⟩ frame).store
      exact counted_moves.1 _ (exact.continues continues)
    | body frame =>
      have continues := (Interpreted.stays_step ⟨owner, payloads, controls, store⟩ frame).store
      exact counted_moves.2 _ (exact.continues continues)
    | host program => exact counted_stepHost program exact
    | call id function args => exact counted_startCall id function args exact
    | callImport id function args => exact counted_startImport id function args exact
    | done result =>
      cases stack with
      | nil => exact .inl exact
      | cons context rest => exact counted_receive result exact
  · cases falls
    cases stack with
    | nil => cases inside
    | cons context rest => exact counted_unwind bounded inside

theorem Counted.run (counted : Counted base world) (steps : Nat) :
    Counted base (World.step^[steps] world) := by
  induction steps with
  | zero => exact counted
  | succ steps ih =>
    rw [Function.iterate_succ_apply']
    exact ih.step

/-! ## Operations -/

/-- What is asked of a store. A call by name is a call of the function with that name. -/
inductive Operation where
  | call (id function : Nat) (args : List Value)
  | callImport (id function : Nat) (args : List Value)
  | runEngine (engine : Engine) (id function : Nat) (args : List Value)
  | instantiate (source : Module) (imports : Imports HostProgram) (engine : EngineOptions)
  | instantiateCompiled (compiled : CompiledModule) (imports : Imports HostProgram)

def Operation.start (store : Store) : Operation → World
  | .call id function args => ⟨store, {}, .call id function args, [], []⟩
  | .callImport id function args => ⟨store, {}, .callImport id function args, [], []⟩
  | .runEngine engine id function args =>
    startEngine store {} [] [] engine id function args
  | .instantiate source imports engine =>
    startInstance store {} [] [] source imports (engine.engine source)
  | .instantiateCompiled compiled imports =>
    startInstance store {} [] [] compiled.source imports ((Program.load compiled).map .compiled)

theorem exact_nil (store : Store) : Exact store store [] where
  limits := rfl
  balanced := trivial
  reentry := rfl
  nested := Nat.le_max_left _ _
  least := Nat.le_refl _
  deep := Nat.le_max_left _ _
  depth := rfl

theorem counted_start (store : Store) (operation : Operation) :
    Counted store (operation.start store) := by
  have exact := exact_nil store
  cases operation with
  | call | callImport => exact .inl exact
  | runEngine engine id function args =>
    exact counted_startEngine engine id function args exact
  | instantiate source imports engine => exact counted_startInstance source imports _ exact
  | instantiateCompiled _ imports => exact counted_startInstance _ imports _ exact

/-- The step to come counts a frame down: the frame that runs leaves, or what an interpreted frame
has called in its place returns. -/
inductive EndsFrame (world : World) : Prop where
  | unit {frame : Compiled.Frame} (runs : world.control = .unit frame)
      (leaves : (Compiled.step ⟨world.thread.owner,
        (world.thread.program.map Program.dispatch).getD #[], world.thread.boxes,
        world.thread.slots, world.store⟩ frame).1 = .ok .leave)
  | body {frame : Interpreted.Frame} (runs : world.control = .body frame)
      (leaves : (Interpreted.step ⟨world.thread.owner, world.thread.payloads,
        world.thread.controls, world.store⟩ frame).1 = .ok .leave)
  | tail {frame : Interpreted.Frame} {rest : List Context} {result : Delivery}
      (waits : world.stack = .body frame :: rest) (tail : frame.tail)
      (returns : world.control = .done result) (well : result.isReturn)

def EndsEntry (world : World) : Prop :=
  ∃ rest result, world.stack = .reentryEnd :: rest ∧ world.control = .done result

def RunsHost (world : World) : Prop := ∃ program, world.control = .host program

/-- The account of a moment of an operation, which started with the counts of a store. -/
structure Accounted (base : Store) (world : World) : Prop where
  depth : ¬ world.Unwinds → world.store.depth = base.depth + frames world.held
  least : base.depth + frames world.held ≤ world.store.depth
  reentry : world.store.reentry = base.reentry + entries world.stack
  limits : world.store.limits = base.limits
  deep : base.depth ≤ base.limits.callDepth → world.store.depth ≤ base.limits.callDepth
  nested : base.reentry ≤ base.limits.reentry → world.store.reentry ≤ base.limits.reentry
  frameEnds : world.EndsFrame → world.store.depth = world.step.store.depth + 1
  entryEnds : world.EndsEntry → world.store.reentry = world.step.store.reentry + 1
  ended : world.result?.isSome → world.store.depth = base.depth ∧ world.store.reentry = base.reentry

theorem succ_of_endsEntry (reentry : world.store.reentry = base.reentry + entries world.stack)
    (ends : world.EndsEntry) : world.store.reentry = world.step.store.reentry + 1 := by
  obtain ⟨store, _, _, stack, _⟩ := world
  obtain ⟨rest, _, waits, done⟩ := ends
  cases waits
  cases done
  rw [entries_cons] at reentry
  change store.reentry = base.reentry + (entries rest + 1) at reentry
  change store.reentry = store.reentry - 1 + 1
  omega

theorem Exact.succ_leaveFrame {stack : List Context} (exact : Exact base store (context :: stack))
    (frame : context.isFrame) (same : other.depth = store.depth) :
    store.depth = (leaveFrame other).depth + 1 := by
  have one := exact.depth
  rw [frames_cons, if_pos frame] at one
  change store.depth = other.depth - 1 + 1
  omega

theorem Counted.frameEnds (counted : Counted base world) (ends : world.EndsFrame) :
    world.store.depth = world.step.store.depth + 1 := by
  have exact : Exact base world.store world.held := by
    rcases counted with exact | ⟨_, ⟨trap, falls⟩, _⟩
    · exact exact
    · cases ends with
      | unit runs | body runs => cases falls.symm.trans runs
      | tail waits tail returns well =>
        cases falls.symm.trans returns
        cases well
  obtain ⟨store, ⟨owner, program, boxes, slots, payloads, controls⟩, _, stack, trace⟩ := world
  cases ends with
  | @unit frame runs leaves =>
    cases runs
    have continues := (Compiled.stays_step
      ⟨owner, (program.map Program.dispatch).getD #[], boxes, slots, store⟩ frame).store
    have moved : (World.step ⟨store, ⟨owner, program, boxes, slots, payloads, controls⟩,
        .unit frame, stack, trace⟩).store = leaveFrame (Compiled.step
          ⟨owner, (program.map Program.dispatch).getD #[], boxes, slots, store⟩ frame).2.store := by
      simp only [World.step, leaves, moveUnit]
    rw [moved]
    exact exact.succ_leaveFrame rfl continues.depth
  | @body frame runs leaves =>
    cases runs
    have continues := (Interpreted.stays_step ⟨owner, payloads, controls, store⟩ frame).store
    have moved : (World.step ⟨store, ⟨owner, program, boxes, slots, payloads, controls⟩,
        .body frame, stack, trace⟩).store = leaveFrame (Interpreted.step
          ⟨owner, payloads, controls, store⟩ frame).2.store := by
      simp only [World.step, leaves, moveBody]
    rw [moved]
    exact exact.succ_leaveFrame rfl continues.depth
  | @tail frame rest result waits tail returns well =>
    cases waits
    cases returns
    cases result with
    | returned | values =>
      simp only [World.step, receive, tail, if_true]
      exact exact.succ_leaveFrame rfl rfl
    | trap | created => cases well

theorem RunsHost.stays (runs : world.RunsHost) : ¬ world.Unwinds := by
  obtain ⟨_, host⟩ := runs
  rintro ⟨⟨_, falls⟩, _⟩
  cases falls.symm.trans host

theorem RunsHost.held (runs : world.RunsHost) : world.held = world.stack := by
  obtain ⟨_, host⟩ := runs
  rw [World.held, host]

theorem exists_of_result? (ended : world.result?.isSome) :
    ∃ result, world.control = .done result ∧ world.stack = [] := by
  unfold result? at ended
  split at ended
  · rename_i result control stack
    exact ⟨result, control, stack⟩
  · cases ended

theorem entries_held (world : World) : entries world.held = entries world.stack := by
  unfold held
  split <;> first | exact entries_same _ rfl | rfl

theorem Counted.accounted (counted : Counted base world) : Accounted base world := by
  have bounded : Bounded base world.store world.held := by
    rcases counted with exact | ⟨bounded, ⟨_, falls⟩, _⟩
    · exact exact.toBounded
    · unfold held
      rw [falls]
      exact bounded
  have exact (stays : ¬ world.Unwinds) : Exact base world.store world.held :=
    counted.resolve_right fun unwinds => stays unwinds.2
  have reentry : world.store.reentry = base.reentry + entries world.stack :=
    entries_held world ▸ bounded.reentry
  refine
    { depth := fun stays => (exact stays).depth
      least := bounded.least
      reentry
      limits := bounded.limits
      deep := fun room => Nat.le_trans bounded.deep (Nat.max_le.mpr ⟨room, Nat.le_refl _⟩)
      nested := fun room => Nat.le_trans bounded.nested (Nat.max_le.mpr ⟨room, Nat.le_refl _⟩)
      frameEnds := counted.frameEnds
      entryEnds := succ_of_endsEntry reentry
      ended := fun ended => ?_ }
  obtain ⟨_, done, alone⟩ := exists_of_result? ended
  have stays : ¬ world.Unwinds := fun unwinds => by
    have inside := unwinds.2
    rw [alone] at inside
    exact inside
  have empty : world.held = [] := by rw [held, done, alone]
  have depth := (exact stays).depth
  rw [empty] at depth
  rw [alone] at reentry
  exact ⟨depth, reentry⟩

theorem accounted_of_operation (store : Store) (operation : Operation) (steps : Nat) :
    Accounted store (World.step^[steps] (operation.start store)) :=
  ((counted_start store operation).run steps).accounted

theorem exists_first_of_run (ran : world.run fuel = some last) :
    last.result?.isSome ∧ ∃ steps, last = World.step^[steps] world ∧
      ∀ earlier < steps, ¬ (World.step^[earlier] world).result?.isSome := by
  induction fuel generalizing world with
  | zero =>
    unfold run at ran
    split at ran
    · rename_i ended
      cases ran
      exact ⟨ended, 0, rfl, fun _ less => absurd less (Nat.not_lt_zero _)⟩
    · cases ran
  | succ fuel ih =>
    unfold run at ran
    split at ran
    · rename_i ended
      cases ran
      exact ⟨ended, 0, rfl, fun _ less => absurd less (Nat.not_lt_zero _)⟩
    · rename_i pending
      obtain ⟨ended, steps, same, busy⟩ := ih ran
      refine ⟨ended, steps + 1, same, fun earlier less => ?_⟩
      cases earlier with
      | zero => exact pending
      | succ earlier => exact busy earlier (Nat.lt_of_succ_lt_succ less)

end World

def Store.SameCounts (before after : Store) : Prop :=
  after.depth = before.depth ∧ after.reentry = before.reentry

namespace World

variable {store : Store} {fuel : Nat}

theorem sameCounts_of_run (operation : Operation)
    (ran : (operation.start store).run fuel = some last) : store.SameCounts last.store := by
  obtain ⟨ended, steps, same, _⟩ := exists_first_of_run ran
  subst same
  exact (accounted_of_operation store operation steps).ended ended

theorem sameCounts_of_finishCall (operation : Operation)
    (finished : Store.finishCall fuel (operation.start store) = some ran) :
    store.SameCounts ran.store := by
  obtain ⟨_, ended, same⟩ := Option.map_eq_some_iff.mp finished
  subst same
  exact sameCounts_of_run operation ended

theorem sameCounts_of_finishInstance (operation : Operation)
    (finished : Store.finishInstance fuel (operation.start store) = some ran) :
    store.SameCounts ran.store := by
  obtain ⟨_, ended, same⟩ := Option.map_eq_some_iff.mp finished
  subst same
  exact sameCounts_of_run operation ended

theorem sameCounts_of_invoke {id : Nat}
    (finished : store.invoke fuel id name args = some ran) : store.SameCounts ran.store := by
  unfold Store.invoke at finished
  split at finished
  · cases finished
    exact ⟨rfl, rfl⟩
  · rename_i function _
    obtain ⟨_, ended, same⟩ := Option.map_eq_some_iff.mp finished
    subst same
    exact sameCounts_of_finishCall (.call id function args) ended

/-- At every moment of an operation on a store, the count of frames is what it was at first plus the
frames that run or wait, and the count of entries what it was plus the entries that are open. Both
keep to the limits, and neither is counted down from nothing. An operation that a host function asks
for leaves the counts as it found them, and so does the whole operation when it ends, however it
does. -/
theorem counts_of_operation (store : Store) :
    (∀ (operation : Operation) (steps : Nat),
      Accounted store (step^[steps] (operation.start store))) ∧
    (∀ (operation : Operation) (first last : Nat), (step^[first] (operation.start store)).RunsHost →
      (step^[last] (operation.start store)).RunsHost →
      (step^[last] (operation.start store)).stack = (step^[first] (operation.start store)).stack →
      (step^[first] (operation.start store)).store.SameCounts
        (step^[last] (operation.start store)).store) ∧
    (∀ (operation : Operation) (fuel : Nat) (last : World),
      (operation.start store).run fuel = some last → store.SameCounts last.store) ∧
    (∀ (fuel id function : Nat) (args : List Value) (ran : Ran (Except Trap (List Value))),
      store.call fuel id function args = some ran → store.SameCounts ran.store) ∧
    (∀ (fuel id : Nat) (name : String) (args : List Value)
      (ran : Ran (Except Error (List Value))),
      store.invoke fuel id name args = some ran → store.SameCounts ran.store) ∧
    (∀ (fuel : Nat) (source : Module) (imports : Imports HostProgram) (engine : EngineOptions)
      (ran : Ran (Except Error Nat)),
      store.instantiate fuel source imports engine = some ran → store.SameCounts ran.store) ∧
    ∀ (fuel : Nat) (compiled : CompiledModule) (imports : Imports HostProgram)
      (ran : Ran (Except Error Nat)),
      store.instantiateCompiled fuel compiled imports = some ran →
        store.SameCounts ran.store := by
  refine ⟨accounted_of_operation store, fun operation first last runs again same => ?_,
    fun operation _ _ => sameCounts_of_run operation,
    fun _ id function args _ => sameCounts_of_finishCall (.call id function args),
    fun _ _ _ _ _ => sameCounts_of_invoke,
    fun _ source imports engine _ =>
      sameCounts_of_finishInstance (.instantiate source imports engine),
    fun _ compiled imports _ =>
      sameCounts_of_finishInstance (.instantiateCompiled compiled imports)⟩
  have before := accounted_of_operation store operation first
  have after := accounted_of_operation store operation last
  refine ⟨?_, ?_⟩
  · rw [after.depth again.stays, before.depth runs.stays, again.held, runs.held, same]
  · rw [after.reentry, before.reentry, same]

end World

end TwinEngine
