import TwinEngine.Proofs.World.Nesting

/-!
Contract: instantiations that fail are undone.

Owns: which reply each waiting context is for, that no other reply reaches it, that the instances
that are being started lie on the stack in the order in which they were made, and what an
instantiation makes of a store.

Nothing is asked of the modules in the store. Replies follow from how contexts are put on the stack,
not from types.
-/

namespace TwinEngine

/-- What something gives in the end, unless it traps. -/
inductive Reply where
  | returned
  | values
  | created

/-- A trap may come in place of the reply. That no instance was made is an error instead. -/
def Reply.mayTrap : Reply → Bool
  | .returned | .values => true
  | .created => false

variable {context : Context}

namespace Context

def takes : Context → Reply → Bool
  | .unit _, .returned | .unitEntry _ _, .returned | .bodyEntry _ _, .returned => true
  | .body _, .returned | .body _, .values => true
  | .unitValues _ _, .values | .threadEnd _ _, .values | .reentryEnd, .values => true
  | .hostResult _, .values | .hostCall _, .values | .hostInvoke _, .values => true
  | .starting _, .values => true
  | .hostInstantiate _, .created => true
  | _, _ => false

def gives : Context → Reply
  | .unit _ | .unitValues _ _ | .body _ => .returned
  | .starting _ => .created
  | _ => .values

end Context

namespace World

/-! ## Replies -/

/-- What waits on top is for such a reply. What waits beneath the stack is for the one given. -/
def Expects (ground : Reply) : List Context → Reply → Prop
  | [], reply => reply = ground
  | context :: _, reply => context.takes reply

def Chained (ground : Reply) : List Context → Prop
  | [] => True
  | context :: rest => Expects ground rest context.gives ∧ Chained ground rest

/-- What is done now gives what the top of the stack waits for, or a trap in place of it. -/
def Suits (ground : Reply) (stack : List Context) : Control → Prop
  | .unit _ | .body _ | .done .returned => Expects ground stack .returned
  | .host _ | .call _ _ _ | .callImport _ _ _ | .done (.values _) => Expects ground stack .values
  | .done (.created _) => Expects ground stack .created
  | .done (.trap _) => ∃ reply, Expects ground stack reply ∧ reply.mayTrap

/-- Instances that are being started lie on the stack in the order in which they were made, above a
floor. The size is that of the store, so that the last one is still there. -/
def Rises (floor : Nat) : Nat → List Context → Prop
  | size, [] => floor ≤ size
  | size, .starting id :: rest => id < size ∧ Rises floor id rest
  | size, _ :: rest => Rises floor size rest

variable {floor function count : Nat} {ground : Reply} {world : World} {result : Delivery}

theorem Rises.mono {stack : List Context} :
    ∀ {less more}, Rises floor less stack → less ≤ more → Rises floor more stack := by
  induction stack with
  | nil => exact fun rises le => Nat.le_trans rises le
  | cons context _ ih =>
    intro less more rises le
    cases context with
    | starting => exact ⟨Nat.lt_of_lt_of_le rises.1 le, rises.2⟩
    | _ => exact ih rises le

/-- A stack on which replies and instances are in order. -/
structure Disposed (ground : Reply) (floor size : Nat) (stack : List Context) : Prop where
  chained : Chained ground stack
  rises : Rises floor size stack

/-- A moment at which replies and instances are in order. -/
structure Orderly (ground : Reply) (floor : Nat) (world : World) : Prop where
  disposed : Disposed ground floor world.store.instances.size world.stack
  suits : Suits ground world.stack world.control

section Steps

variable {ground : Reply} {floor : Nat} {store : Store} {thread : Thread} {stack : List Context}
  {trace : List HostCall}

theorem orderly_receive (disposed : Disposed ground floor store.instances.size (context :: stack))
    (suits : Suits ground (context :: stack) (.done result)) :
    Orderly ground floor (receive store thread stack trace context result) := by
  obtain ⟨⟨expects, chained⟩, rises⟩ := disposed
  cases context with
  | starting id =>
    have kept : Rises floor store.instances.size stack := rises.2.mono (Nat.le_of_lt rises.1)
    cases result with
    | values => exact ⟨⟨chained, kept⟩, expects⟩
    | trap =>
      have size : (store.truncate id).instances.size = id := by
        rw [Store.size_truncate]
        exact Nat.min_eq_left (Nat.le_of_lt rises.1)
      refine ⟨⟨chained, ?_⟩, expects⟩
      change Rises floor (store.truncate id).instances.size stack
      rw [size]
      exact rises.2
    | returned | created => cases suits
  | hostInstantiate =>
    cases result with
    | created => exact ⟨⟨chained, rises⟩, expects⟩
    | trap =>
      obtain ⟨reply, takes, other⟩ := suits
      cases reply <;> first | (cases takes; done) | cases other
    | returned | values => cases suits
  | threadEnd | reentryEnd =>
    cases result with
    | values => exact ⟨⟨chained, rises⟩, expects⟩
    | trap => exact ⟨⟨chained, rises⟩, _, expects, rfl⟩
    | returned | created => cases suits
  | hostCall | hostInvoke =>
    cases result with
    | values | trap => exact ⟨⟨chained, rises⟩, expects⟩
    | returned | created => cases suits
  | hostResult | unitEntry | bodyEntry =>
    cases result
    all_goals
      first
      | cases suits; done
      | simp only [receive]
        try split
        all_goals
          first
          | exact ⟨⟨chained, rises⟩, expects⟩
          | exact ⟨⟨chained, rises⟩, _, expects, rfl⟩
  | unit | unitValues =>
    cases result
    all_goals
      first
      | cases suits; done
      | exact ⟨⟨chained, rises⟩, expects⟩
      | exact ⟨⟨chained, rises⟩, _, expects, rfl⟩
  | body =>
    cases result with
    | returned | values =>
      simp only [receive]
      split <;> exact ⟨⟨chained, rises⟩, expects⟩
    | trap => exact ⟨⟨chained, rises⟩, _, expects, rfl⟩
    | created => cases suits

variable (disposed : Disposed ground floor store.instances.size stack)

include disposed

theorem orderly_startCall (id function : Nat) (args : List Value)
    (expects : Expects ground stack .values) :
    Orderly ground floor (startCall store thread stack trace id function args) := by
  obtain ⟨chained, rises⟩ := disposed
  dsimp only [startCall, startEngine, startUnit, enterUnit, startBody, enterBody]
  repeat' split
  all_goals
    first
    | exact ⟨⟨chained, rises⟩, _, expects, rfl⟩
    | exact ⟨⟨⟨expects, chained⟩, rises⟩, .values, rfl, rfl⟩
    | exact ⟨⟨⟨expects, chained⟩, rises⟩, rfl⟩
    | exact ⟨⟨⟨rfl, expects, chained⟩, rises⟩, .values, rfl, rfl⟩
    | exact ⟨⟨⟨rfl, rfl, expects, chained⟩, rises⟩, rfl⟩

theorem orderly_startImport (id function : Nat) (args : List Value)
    (expects : Expects ground stack .values) :
    Orderly ground floor (startImport store thread stack trace id function args) := by
  unfold startImport
  repeat' split
  all_goals
    first
    | exact ⟨disposed, _, expects, rfl⟩
    | exact ⟨disposed, expects⟩
    | exact ⟨⟨⟨rfl, expects, disposed.chained⟩, disposed.rises⟩, rfl⟩

/-- An instance that is made is the last one, and it lies on top while it is started. -/
theorem orderly_startInstance (source : Module) (imports : Imports HostProgram)
    (engine : Except Error Engine) (expects : Expects ground stack .created) :
    Orderly ground floor (startInstance store thread stack trace source imports engine) := by
  rw [startInstance_eq]
  split
  · exact ⟨disposed, expects⟩
  · rename_i live _
    have more : store.instances.size < (store.instances.push live).size := by
      rw [Array.size_push]
      exact Nat.lt_succ_self _
    split
    · exact ⟨⟨disposed.chained, disposed.rises.mono (Nat.le_of_lt more)⟩, expects⟩
    · exact ⟨⟨⟨expects, disposed.chained⟩, more, disposed.rises⟩, rfl⟩

theorem orderly_moves (expects : Expects ground stack .returned) :
    (∀ move, Orderly ground floor (moveUnit store thread stack trace move)) ∧
      ∀ move, Orderly ground floor (moveBody store thread stack trace move) := by
  obtain ⟨chained, rises⟩ := disposed
  dsimp only [moveUnit, moveBody, startUnit, enterUnit, startBody, enterBody]
  constructor
  all_goals
    intro move
    repeat' split
    all_goals
      first
      | exact ⟨⟨chained, rises⟩, expects⟩
      | exact ⟨⟨chained, rises⟩, _, expects, rfl⟩
      | exact ⟨⟨⟨expects, chained⟩, rises⟩, rfl⟩
      | exact ⟨⟨⟨expects, chained⟩, rises⟩, .values, rfl, rfl⟩
      | exact ⟨⟨⟨rfl, expects, chained⟩, rises⟩, rfl⟩

theorem orderly_stepHost (program : HostProgram) (expects : Expects ground stack .values) :
    Orderly ground floor (stepHost store thread stack trace program) := by
  cases program with
  | finish outcome =>
    cases outcome with
    | ok => exact ⟨disposed, expects⟩
    | error => exact ⟨disposed, _, expects, rfl⟩
  | call => exact ⟨⟨⟨expects, disposed.chained⟩, disposed.rises⟩, rfl⟩
  | observe | interrupt => exact ⟨disposed, expects⟩
  | invoke =>
    unfold stepHost
    dsimp only
    split
    · exact ⟨disposed, expects⟩
    · exact ⟨⟨⟨expects, disposed.chained⟩, disposed.rises⟩, rfl⟩
  | instantiate | instantiateCompiled =>
    refine orderly_startInstance ?_ _ _ _ rfl
    exact ⟨⟨expects, disposed.chained⟩, disposed.rises⟩
  | changeMemory id change =>
    have continues := store.continues_access id (Instance.gentle_changeMemory change).lasting
    unfold stepHost
    dsimp only
    split
    · exact ⟨disposed, expects⟩
    · exact ⟨⟨disposed.chained, continues.size ▸ disposed.rises⟩, expects⟩

end Steps

/-- A step keeps replies and instances in order. -/
theorem Orderly.step (orderly : Orderly ground floor world) : Orderly ground floor world.step := by
  obtain ⟨store, ⟨owner, program, boxes, slots, payloads, controls⟩, control, stack, _⟩ := world
  obtain ⟨disposed, suits⟩ := orderly
  cases control with
  | unit frame =>
    have continues := (Compiled.stays_step
      ⟨owner, (program.map Program.dispatch).getD #[], boxes, slots, store⟩ frame).store
    exact (orderly_moves ⟨disposed.chained, continues.size ▸ disposed.rises⟩ suits).1 _
  | body frame =>
    have continues := (Interpreted.stays_step ⟨owner, payloads, controls, store⟩ frame).store
    exact (orderly_moves ⟨disposed.chained, continues.size ▸ disposed.rises⟩ suits).2 _
  | host program => exact orderly_stepHost disposed program suits
  | call id function args => exact orderly_startCall disposed id function args suits
  | callImport id function args =>
    exact orderly_startImport disposed id function args suits
  | done =>
    cases stack with
    | nil => exact ⟨disposed, suits⟩
    | cons => exact orderly_receive disposed suits

theorem Orderly.iterate (orderly : Orderly ground floor world) (count : Nat) :
    Orderly ground floor (World.step^[count] world) := by
  induction count with
  | zero => exact orderly
  | succ count ih =>
    rw [Function.iterate_succ_apply']
    exact ih.step

/-! ## Instantiations -/

/-- How an instantiation leaves a store. If no instance could be made, then nothing has changed. If
the start function of the new instance traps, then the number of instances and the counts of frames
and entries are those from before. Otherwise the new instance has the first free id. -/
inductive Concludes (before : Store) (prepared : Except Error Instance) (after : Store) :
    Except Error Nat → Prop where
  | refused {error : Error} (fails : prepared = .error error) (same : after = before) :
      Concludes before prepared after (.error error)
  | undone {live : Instance} {function : Nat} {trap : Trap} (made : prepared = .ok live)
      (starts : live.source.start = some function)
      (size : after.instances.size = before.instances.size) (counts : before.SameCounts after) :
      Concludes before prepared after (.error (.trap trap))
  | kept {live : Instance} (made : prepared = .ok live)
      (size : before.instances.size < after.instances.size) (counts : before.SameCounts after) :
      Concludes before prepared after (.ok before.instances.size)

/-- Before a result gets further down, it is handed to the context above. -/
theorem exists_handed (handed : Handed bottom (step^[count] (part.onto (context :: bottom)))) :
    ∃ first < count, Handed [] (step^[first] part) ∧ step^[first] (part.onto (context :: bottom)) =
        (step^[first] part).onto (context :: bottom) := by
  classical
  by_cases reached :
      ∃ first, first < count ∧ Handed (context :: bottom)
        (step^[first] (part.onto (context :: bottom)))
  · obtain ⟨less, here⟩ := Nat.find_spec reached
    have above := iterate_onto fun earlier before now =>
      Nat.find_min reached before ⟨Nat.lt_trans before less, now⟩
    rw [above, handed_onto] at here
    exact ⟨Nat.find reached, less, here, above⟩
  · have above := iterate_onto fun earlier less now => reached ⟨earlier, less, now⟩
    have height := congrArg List.length handed.1
    rw [above] at height
    simp only [onto, List.length_append, List.length_cons] at height
    omega

variable {store : Store} {thread : Thread} {bottom : List Context} {trace : List HostCall}
  {source : Module} {imports : Imports HostProgram} {engine : Except Error Engine} {live : Instance}

/-- What the call of a start function comes to. The instance that it belongs to is still there, and
so are those made before. -/
theorem handed_of_start (stack : world.stack = []) {id : Nat}
    (calls : world.control = .call id function []) (handed : Handed [] (step^[count] world)) :
    world.store.SameCounts (step^[count] world).store ∧
      world.store.instances.size ≤ (step^[count] world).store.instances.size ∧
      ∃ result, (step^[count] world).control = .done result ∧
        ((∃ values, result = .values values) ∨ ∃ trap, result = .trap trap) := by
  obtain ⟨store, thread, control, _, trace⟩ := world
  subst stack calls
  have counted : Counted store ⟨store, thread, .call id function [], [], trace⟩ :=
    .inl (exact_nil store)
  have orderly : Orderly .values store.instances.size
      ⟨store, thread, .call id function [], [], trace⟩ := ⟨⟨trivial, Nat.le_refl _⟩, rfl⟩
  obtain ⟨disposed, suits⟩ := orderly.iterate count
  obtain ⟨empty, result, done⟩ := handed
  have ended : (step^[count] ⟨store, thread, .call id function [], [], trace⟩).result?.isSome := by
    rw [result?, done, empty]
    rfl
  rw [empty] at disposed suits
  rw [done] at suits
  refine ⟨(counted.run count).accounted.ended ended, disposed.rises, result, done, ?_⟩
  cases result with
  | values values => exact .inl ⟨values, rfl⟩
  | trap trap => exact .inr ⟨trap, rfl⟩
  | returned | created => cases suits

section

variable (prepared : engine >>= store.prepare source imports = .ok live)

include prepared

theorem startInstance_of_none (start : live.source.start = none) :
    startInstance store thread bottom trace source imports engine =
      ⟨{ store with instances := store.instances.push live }, thread,
        .done (.created (.ok store.instances.size)), bottom, trace⟩ := by
  simp only [startInstance_eq, prepared, start]

theorem startInstance_of_some (start : live.source.start = some function) :
    startInstance store thread bottom trace source imports engine =
      ⟨{ store with instances := store.instances.push live }, thread,
        .call store.instances.size function [], .starting store.instances.size :: bottom,
          trace⟩ := by
  simp only [startInstance_eq, prepared, start]

theorem concludes_of_start (start : live.source.start = some function) (handed : Handed [] world)
    (counts : store.SameCounts world.store)
    (size : store.instances.size < world.store.instances.size) (done : world.control = .done result)
    (ends : (∃ values, result = .values values) ∨ ∃ trap, result = .trap trap) :
    ∃ outcome, (step (world.onto (.starting store.instances.size :: bottom))).control =
        .done (.created outcome) ∧
      (step (world.onto (.starting store.instances.size :: bottom))).stack = bottom ∧
      Concludes store (engine >>= store.prepare source imports)
        (step (world.onto (.starting store.instances.size :: bottom))).store outcome := by
  obtain ⟨later, _, control, stack, _⟩ := world
  obtain ⟨empty, _⟩ := handed
  subst empty done
  rcases ends with ⟨values, rfl⟩ | ⟨trap, rfl⟩
  · exact ⟨_, rfl, rfl, .kept prepared size counts⟩
  · refine ⟨_, rfl, rfl, .undone prepared start ?_ counts⟩
    change (later.truncate store.instances.size).instances.size = store.instances.size
    rw [Store.size_truncate]
    exact Nat.min_eq_left (Nat.le_of_lt size)

end

/-- An instantiation ends in one of three ways. -/
theorem concludes_of_handed
    (begins : startInstance store thread bottom trace source imports engine = begun)
    (pending : ∀ earlier < count, ¬ Handed bottom (step^[earlier] begun))
    (handed : Handed bottom (step^[count] begun)) :
    ∃ outcome, (step^[count] begun).control = .done (.created outcome) ∧
      Concludes store (engine >>= store.prepare source imports) (step^[count] begun).store
        outcome := by
  -- Once a result is on its way to the bottom, no more steps are made.
  have last {now : Nat} (reached : now ≤ count) (here : Handed bottom (step^[now] begun)) :
      count = now :=
    Nat.le_antisymm (Nat.le_of_not_lt fun less => pending now less here) reached
  cases prepared : engine >>= store.prepare source imports with
  | error error =>
    simp only [startInstance_eq, prepared] at begins
    subst begins
    cases last (Nat.zero_le _) ⟨rfl, _, rfl⟩
    exact ⟨_, rfl, .refused rfl rfl⟩
  | ok live =>
    have more : store.instances.size < (store.instances.push live).size := by
      rw [Array.size_push]
      exact Nat.lt_succ_self _
    cases start : live.source.start with
    | none =>
      rw [startInstance_of_none prepared start] at begins
      subst begins
      cases last (Nat.zero_le _) ⟨rfl, _, rfl⟩
      exact ⟨_, rfl, .kept rfl more ⟨rfl, rfl⟩⟩
    | some function =>
      rw [startInstance_of_some prepared start] at begins
      let part : World := ⟨{ store with instances := store.instances.push live }, thread,
        .call store.instances.size function [], [], trace⟩
      have above : begun = part.onto (.starting store.instances.size :: bottom) := begins.symm
      rw [above] at handed
      obtain ⟨first, less, reached, same⟩ := exists_handed handed
      obtain ⟨counts, size, result, done, ends⟩ := handed_of_start rfl rfl reached
      obtain ⟨outcome, gives, alone, concludes⟩ := concludes_of_start prepared start reached
        counts (Nat.lt_of_lt_of_le more size) done ends
      have next : step^[first + 1] begun =
          step ((step^[first] part).onto (.starting store.instances.size :: bottom)) := by
        rw [Function.iterate_succ_apply', above, same]
      have arrives : Handed bottom (step^[first + 1] begun) := by
        rw [next]
        exact ⟨alone, _, gives⟩
      rw [last less arrives, next]
      exact ⟨outcome, gives, prepared ▸ concludes⟩

theorem handed_nil_iff : Handed [] world ↔ world.result?.isSome := by
  constructor
  · rintro ⟨alone, result, done⟩
    rw [result?, done, alone]
    rfl
  · intro ended
    obtain ⟨result, done, alone⟩ := exists_of_result? ended
    exact ⟨alone, result, done⟩

theorem concludes_of_finishInstance (finished : Store.finishInstance fuel
      (startInstance store {} [] [] source imports engine) = some ran) :
    Concludes store (engine >>= store.prepare source imports) ran.store ran.outcome := by
  obtain ⟨_, ended, rfl⟩ := Option.map_eq_some_iff.mp finished
  obtain ⟨result, _, rfl, pending⟩ := exists_first_of_run ended
  have handed := handed_nil_iff.mpr result
  obtain ⟨outcome, gives, concludes⟩ := concludes_of_handed rfl
    (fun earlier less now => pending earlier less (handed_nil_iff.mp now)) handed
  simp only [result?, gives, handed.1]
  exact concludes

/-- A host function asks for an instance. What it waits with lies on top of the stack. -/
inductive Requests (world : World) :
    Module → Imports HostProgram → Except Error Engine → List Context → Prop where
  | instantiate {source : Module} {imports : Imports HostProgram} {engine : EngineOptions}
      {next : Except Error Nat → HostProgram}
      (asks : world.control = .host (.instantiate source imports engine next)) :
      Requests world source imports (engine.engine source) (.hostInstantiate next :: world.stack)
  | instantiateCompiled {compiled : CompiledModule} {imports : Imports HostProgram}
      {next : Except Error Nat → HostProgram}
      (asks : world.control = .host (.instantiateCompiled compiled imports next)) :
      Requests world compiled.source imports ((Program.load compiled).map .compiled)
        (.hostInstantiate next :: world.stack)

theorem Requests.step_eq (requests : Requests world source imports engine bottom) : world.step =
      startInstance world.store world.thread bottom world.trace source imports engine := by
  obtain ⟨store, thread, _, _, trace⟩ := world
  cases requests with
  | instantiate asks | instantiateCompiled asks =>
    cases asks
    rfl

/-- A failed instantiation is undone, whether it is an operation on a store or a host function asks
for it in the middle of a run, and whatever the start function and the host functions that it calls
do meanwhile, which may be further instantiations. If no instance can be made, then nothing changes
at all. If the start function traps, then there are as many instances as before, and the counts of
frames and entries are those from before. If all goes well, then the new instance has the first free
id. Until the start function is called, all that happens is that the new instance is added. -/
theorem instantiation_concludes (store : Store) (imports : Imports HostProgram) :
    (∀ (source : Module) (engine : EngineOptions) (fuel : Nat) (ran : Ran (Except Error Nat)),
      store.instantiate fuel source imports engine = some ran →
      Concludes store (engine.engine source >>= store.prepare source imports) ran.store
        ran.outcome) ∧
    (∀ (compiled : CompiledModule) (fuel : Nat) (ran : Ran (Except Error Nat)),
      store.instantiateCompiled fuel compiled imports = some ran →
      Concludes store
        ((Program.load compiled).map .compiled >>= store.prepare compiled.source imports) ran.store
        ran.outcome) ∧
    (∀ (world : World) (source : Module) (engine : Except Error Engine) (bottom : List Context)
      (count : Nat), world.store = store → Requests world source imports engine bottom →
      (∀ earlier < count, ¬ Handed bottom (step^[earlier] world.step)) →
      Handed bottom (step^[count] world.step) →
      ∃ outcome, (step^[count] world.step).control = .done (.created outcome) ∧
        Concludes store (engine >>= store.prepare source imports) (step^[count] world.step).store
          outcome) ∧
    ∀ (source : Module) (engine : Except Error Engine) (live : Instance) (thread : Thread)
      (bottom : List Context) (trace : List HostCall),
      engine >>= store.prepare source imports = .ok live →
      (startInstance store thread bottom trace source imports engine).store =
        { store with instances := store.instances.push live } := by
  refine ⟨fun source engine fuel ran => concludes_of_finishInstance,
    fun compiled fuel ran => concludes_of_finishInstance,
    fun world source engine bottom count same requests pending handed => ?_,
    fun source engine live thread bottom trace prepared => ?_⟩
  · subst same
    exact concludes_of_handed requests.step_eq.symm pending handed
  · cases start : live.source.start with
    | none => rw [startInstance_of_none prepared start]
    | some function => rw [startInstance_of_some prepared start]

def startsHost : Module := { types := #[.empty], imports := #[⟨"env", "run", 0⟩], start := some 0 }

def linkedTo (program : HostProgram) : Imports HostProgram :=
  ({} : Imports HostProgram).define "env" "run" ⟨.empty, fun _ => program⟩

/-- A start function asks for another instance whose start function traps, and then traps itself. -/
theorem instantiation_concludes_nested : ∃ ran : Ran (Except Error Nat),
    (Store.withLimits {}).instantiate 20 startsHost
      (linkedTo (.instantiate startsHost (linkedTo (.finish (.error .unreachable))) .interpreted
        fun _ => .finish (.error .unreachable))) .interpreted = some ran ∧
      ran.calls.length = 2 ∧ ran.outcome.toOption = none ∧ ran.store.instances.size = 0 := by
  have runs : ((Store.withLimits {}).instantiate 20 startsHost
      (linkedTo (.instantiate startsHost (linkedTo (.finish (.error .unreachable))) .interpreted
        fun _ => .finish (.error .unreachable))) .interpreted).map
      (fun ran => (ran.calls.length, ran.outcome.toOption)) = some (2, none) := by
    decide +kernel
  obtain ⟨ran, ended, gives⟩ := Option.map_eq_some_iff.mp runs
  obtain ⟨calls, fails⟩ := Prod.mk.inj gives
  refine ⟨ran, ended, calls, fails, ?_⟩
  have concludes := (instantiation_concludes _ _).1 _ _ _ _ ended
  generalize ran.outcome = outcome at fails concludes
  cases concludes with
  | refused _ same => rw [same]; rfl
  | undone _ _ size _ => exact size
  | kept => cases fails

end World

end TwinEngine
