import TwinEngine.Proofs.World.Counts
import TwinEngine.Proofs.World.Provenance
import TwinEngine.Proofs.World.Residence

/-!
Contract: runs keep to the types of the code that they run.

Owns: what each waiting context is to be given and what it finds beneath it when it goes on, and
that every step of a run keeps to that.

The shared stacks of a thread are cut up by the frames that wait. Each frame knows its floor, and
the frames beneath it find their own operands there. The ground is what a part of a run stands on:
it is handed over as it was, together with what is expected there.
-/

namespace TwinEngine.World

open Machine (Boxes)
open Value (kind payload)

open Interpreted

/-- What a context waits for: the slots of a unit, the payloads of a body, values of some kinds, the
values of a host function, whatever kinds they have, or a new instance. -/
inductive Expect where
  | unit (type : FunctionType)
  | body (results : List ValueKind)
  | values (kinds : List ValueKind)
  | host
  | created

/-- What a part of a run stands on, and what it is to give. -/
structure Ground where
  thread : Thread
  expect : Expect

/-- A thread without its boxes. Nothing that waits keeps one. -/
def footing (thread : Thread) : Thread := { thread with boxes := .empty }

/-- A frame, or the end of the thread, is on top. -/
def Amid : List Context → Prop
  | [] => True
  | context :: _ => context.isInner ∨ ∃ outer depth, context = .threadEnd outer depth

section Ground

variable (reading : Module → Binary.Sections)

/-- A thread belongs to an instance of a module, and its program stands for the module. -/
def Hosts (store : Store) (thread : Thread) (source : Module) : Prop :=
  ∃ live, store.instances[thread.owner]? = some live ∧ live.source = source ∧
    ∀ {program : Program}, thread.program = some program →
      Lowering.Runnable source (reading source) program

/-- A thread runs a unit of its program. -/
structure RunsUnit (store : Store) (thread : Thread) (code : Compiled.Code) : Prop where
  hosts : Hosts reading store thread code.source
  unit : ∃ program, thread.program = some program ∧ program.units[code.function]? = some code.unit

/-- A thread runs a body of its module. -/
structure RunsBody (store : Store) (thread : Thread) (code : Code) : Prop where
  hosts : Hosts reading store thread code.source
  shapes : code.shapes = Typing.predicted (reading code.source) code.function

variable (ground : Ground)

/-- A stack waits for something, above a thread that is cut down to what the contexts left there. -/
inductive Waits : Store → Thread → List Context → Expect → Prop
  | ground (store : Store) {thread : Thread} {expect : Expect} : thread = ground.thread →
      expect = ground.expect → Waits store thread [] expect
  | unit {store : Store} {thread : Thread} {rest : List Context} {code : Compiled.Code}
      {floor : Stack UInt32} {frame : Compiled.Frame} {callee : FunctionType} :
      RunsUnit reading store thread code →
      Compiled.Awaits code floor frame callee thread.slots →
      Waits store { thread with slots := floor } rest (.unit code.unit.signature) →
      Waits store thread (.unit frame :: rest) (.unit callee)
  | unitValues {store : Store} {thread : Thread} {code : Compiled.Code} :
      RunsUnit reading store thread code →
      Compiled.Awaits code floor frame callee thread.slots →
      Waits store { thread with slots := floor } rest (.unit code.unit.signature) →
      Waits store thread (.unitValues frame callee :: rest) (.values callee.results)
  | unitEntry {store : Store} {thread : Thread} {type : FunctionType} :
      Amid rest → Waits store thread rest (.values type.results) →
      Waits store thread (.unitEntry type thread.slots.height :: rest) (.unit type)
  | body {store : Store} {thread : Thread} {rest : List Context} {code : Code}
      {floor : Floor} {frame : Frame} {results : List ValueKind} :
      RunsBody reading store thread code →
      Awaits code floor frame results thread.payloads thread.controls →
      Waits store { thread with payloads := floor.operands, controls := floor.controls } rest
        (.body code.type.results) →
      Waits store thread (.body frame :: rest) (.body results)
  | bodyValues {store : Store} {thread : Thread} {code : Code} :
      RunsBody reading store thread code →
      Awaits code floor frame results thread.payloads thread.controls →
      Waits store { thread with payloads := floor.operands, controls := floor.controls } rest
        (.body code.type.results) →
      Waits store thread (.body frame :: rest) (.values results)
  | bodyEntry {store : Store} {thread : Thread} {type : FunctionType} :
      Amid rest → Waits store thread rest (.values type.results) →
      Waits store thread (.bodyEntry type thread.payloads.height :: rest) (.body type.results)
  | threadEnd {store : Store} (thread : Thread) {outer : Thread} (depth : Nat)
      {kinds : List ValueKind} :
      outer.boxes.Idle → Waits store (footing outer) rest (.values kinds) →
      Waits store thread (.threadEnd outer depth :: rest) (.values kinds)
  | reentryEnd {store : Store} {thread : Thread} {kinds : List ValueKind} :
      Waits store thread rest (.values kinds) →
      Waits store thread (.reentryEnd :: rest) (.values kinds)
  | hostResult {store : Store} {thread : Thread} {type : FunctionType} :
      Waits store thread rest (.values type.results) →
      Waits store thread (.hostResult type :: rest) .host
  | hostCall {store : Store} {thread : Thread} {next : Except Trap (List Value) → HostProgram}
      (kinds : List ValueKind) :
      (∀ result, (next result).Honest reading) → Waits store thread rest .host →
      Waits store thread (.hostCall next :: rest) (.values kinds)
  | hostInvoke {store : Store} {thread : Thread} {next : Except Error (List Value) → HostProgram}
      (kinds : List ValueKind) :
      (∀ result, (next result).Honest reading) → Waits store thread rest .host →
      Waits store thread (.hostInvoke next :: rest) (.values kinds)
  | hostInstantiate {store : Store} {thread : Thread} {next : Except Error Nat → HostProgram} :
      (∀ outcome, (next outcome).Honest reading) → Waits store thread rest .host →
      Waits store thread (.hostInstantiate next :: rest) .created
  | starting {store : Store} {thread : Thread} {id : Nat} (kinds : List ValueKind) :
      Waits (store.truncate id) thread rest .created →
      Waits store thread (.starting id :: rest) (.values kinds)

/-- What runs now is as its type says, and so is what waits for it. A trap may leave the operands of
its thread in disorder, as long as it has not reached the end of the thread. -/
inductive Poised : Store → Thread → Control → List Context → Prop
  | unit {store : Store} {thread : Thread} {stack : List Context} {code : Compiled.Code}
      {floor : Stack UInt32} {frame : Compiled.Frame} {stance : Machine.Stance} :
      RunsUnit reading store thread code →
      Compiled.Stands code floor frame stance thread.slots thread.boxes →
      Waits reading ground store { footing thread with slots := floor } stack
        (.unit code.unit.signature) →
      Poised store thread (.unit frame) stack
  | body {store : Store} {thread : Thread} {stack : List Context} {code : Code}
      {floor : Floor} {frame : Frame} {shape : Typing.Shape} :
      RunsBody reading store thread code → thread.boxes.Idle →
      Stands code floor frame shape thread.payloads thread.controls →
      Waits reading ground store
        { footing thread with payloads := floor.operands, controls := floor.controls } stack
        (.body code.type.results) →
      Poised store thread (.body frame) stack
  | host {store : Store} {thread : Thread} {stack : List Context} {program : HostProgram} :
      program.Honest reading → thread.boxes.Idle →
      Waits reading ground store (footing thread) stack .host →
      Poised store thread (.host program) stack
  | call {store : Store} {thread : Thread} {stack : List Context} {id function : Nat}
      {args : List Value} {kinds : List ValueKind} : thread.boxes.Idle →
      Waits reading ground store (footing thread) stack (.values kinds) →
      (∀ {live : Instance} {type : FunctionType}, store.instances[id]? = some live →
        live.source.functionType function = some type →
        Waits reading ground store (footing thread) stack (.values type.results)) →
      Poised store thread (.call id function args) stack
  | callImport {store : Store} {thread : Thread} {stack : List Context} {id function : Nat} :
      thread.boxes.Idle →
      Waits reading ground store (footing thread) stack (.values kinds) →
      (∀ {live : Instance} {type : FunctionType}, store.instances[id]? = some live →
        live.source.functionType function = some type →
        Waits reading ground store (footing thread) stack (.values type.results)) →
      Poised store thread (.callImport id function args) stack
  | values {store : Store} {thread : Thread} {stack : List Context} {values : List Value} :
      thread.boxes.Idle →
      Waits reading ground store (footing thread) stack (.values (values.map Value.kind)) →
      Poised store thread (.done (.values values)) stack
  | finished {store : Store} {thread : Thread} {stack : List Context} {values : List Value} :
      thread.boxes.Idle → Waits reading ground store (footing thread) stack .host →
      Poised store thread (.done (.values values)) stack
  | unitReturned {store : Store} {thread : Thread} {stack : List Context} {type : FunctionType} :
      thread.slots.items = returned ++ floor.items →
      Compiled.Returns type returned thread.boxes →
      Waits reading ground store { footing thread with slots := floor } stack (.unit type) →
      Poised store thread (.done .returned) stack
  | bodyReturned {store : Store} {thread : Thread} {stack : List Context}
      {results : List ValueKind} {floor : Stack UInt64} :
      thread.boxes.Idle → Admitted results.reverse given →
      thread.payloads.items = given ++ floor.items →
      Waits reading ground store { footing thread with payloads := floor } stack
        (.body results) →
      Poised store thread (.done .returned) stack
  | trap {store : Store} {thread inner : Thread} {stack : List Context} {expect : Expect}
      (trap : Trap) : Waits reading ground store inner stack expect →
      thread.boxes.Idle ∧ inner = footing thread ∨ Amid stack →
      Poised store thread (.done (.trap trap)) stack
  | created {store : Store} {thread : Thread} {stack : List Context}
      (outcome : Except Error Nat) : thread.boxes.Idle →
      Waits reading ground store (footing thread) stack .created →
      Poised store thread (.done (.created outcome)) stack

/-- The store is lawful, and what runs and waits is as its type says. -/
structure Sound (world : World) : Prop where
  lawful : world.store.Lawful reading
  poised : Poised reading ground world.store world.thread world.control world.stack

end Ground

section Waits

variable {reading : Module → Binary.Sections} {ground : Ground}
  {store larger : Store} {thread inner : Thread} {stack : List Context} {expect : Expect}

theorem Hosts.within (hosts : Hosts reading store thread source)
    (within : store.Within larger) : Hosts reading larger thread source := by
  obtain ⟨_, found, same, stands⟩ := hosts
  obtain ⟨later, here, continues⟩ := within _ _ found
  exact ⟨later, here, continues.source.trans same, stands⟩

theorem RunsUnit.within (runs : RunsUnit reading store thread code)
    (within : store.Within larger) : RunsUnit reading larger thread code :=
  ⟨runs.hosts.within within, runs.unit⟩

theorem RunsBody.within (runs : RunsBody reading store thread code)
    (within : store.Within larger) : RunsBody reading larger thread code :=
  ⟨runs.hosts.within within, runs.shapes⟩

section

variable (waits : Waits reading ground store thread stack expect)

include waits

/-- What waits does not care about new instances, or about the state of those that are there. -/
theorem Waits.within
    (within : store.Within larger) : Waits reading ground larger thread stack expect := by
  induction waits generalizing larger with
  | ground _ same expects => exact .ground larger same expects
  | unit runs awaits _ ih => exact .unit (runs.within within) awaits (ih within)
  | unitValues runs awaits _ ih => exact .unitValues (runs.within within) awaits (ih within)
  | unitEntry amid _ ih => exact .unitEntry amid (ih within)
  | body runs awaits _ ih => exact .body (runs.within within) awaits (ih within)
  | bodyValues runs awaits _ ih => exact .bodyValues (runs.within within) awaits (ih within)
  | bodyEntry amid _ ih => exact .bodyEntry amid (ih within)
  | threadEnd thread depth idle _ ih => exact .threadEnd thread depth idle (ih within)
  | reentryEnd _ ih => exact .reentryEnd (ih within)
  | hostResult _ ih => exact .hostResult (ih within)
  | hostCall kinds honest _ ih => exact .hostCall kinds honest (ih within)
  | hostInvoke kinds honest _ ih => exact .hostInvoke kinds honest (ih within)
  | hostInstantiate honest _ ih => exact .hostInstantiate honest (ih within)
  | starting kinds _ ih => exact .starting kinds (ih (within.truncate _))

theorem Waits.of_instances (same : larger.instances = store.instances) :
    Waits reading ground larger thread stack expect :=
  waits.within (Store.Holds.of_eq same).within

end

theorem Waits.amid_unit (waits : Waits reading ground store thread stack (.unit type)) :
    Amid stack := by
  cases waits with
  | ground => trivial
  | unit | unitEntry => exact .inl rfl

theorem Waits.amid_body (waits : Waits reading ground store thread stack (.body results)) :
    Amid stack := by
  cases waits with
  | ground => trivial
  | body | bodyEntry => exact .inl rfl

theorem Waits.beneath_unit
    (waits : Waits reading ground store thread (context :: stack) (.unit type)) :
    Amid stack ∧ ∃ inner expect, Waits reading ground store inner stack expect := by
  cases waits with
  | unit _ _ beneath => exact ⟨beneath.amid_unit, _, _, beneath⟩
  | unitEntry amid beneath => exact ⟨amid, _, _, beneath⟩

theorem Waits.beneath_body
    (waits : Waits reading ground store thread (context :: stack) (.body results)) :
    Amid stack ∧ ∃ inner expect, Waits reading ground store inner stack expect := by
  cases waits with
  | body _ _ beneath => exact ⟨beneath.amid_body, _, _, beneath⟩
  | bodyEntry amid beneath => exact ⟨amid, _, _, beneath⟩

theorem Waits.answers {id function : Nat}
    (waits : Waits reading ground store thread stack (.values callee.results))
    (found : store.instances[id]? = some live)
    (declared : live.source.functionType function = some callee)
    (there : store.instances[id]? = some other)
    (typed : other.source.functionType function = some type) :
    Waits reading ground store thread stack (.values type.results) := by
  cases found.symm.trans there
  cases declared.symm.trans typed
  exact waits

end Waits

section Steps

variable {reading : Module → Binary.Sections} {ground : Ground} {store : Store}
  {thread : Thread} {stack : List Context} (trace : List HostCall)

/-- Something fails where operands are in order. -/
theorem Sound.fail (trap : Trap) (lawful : store.Lawful reading) (idle : thread.boxes.Idle)
    (waits : Waits reading ground store (footing thread) stack expect) :
    Sound reading ground ⟨store, thread, .done (.trap trap), stack, trace⟩ :=
  ⟨lawful, .trap trap waits (.inl ⟨idle, rfl⟩)⟩

/-- Something fails inside a thread. -/
theorem Sound.fault {inner : Thread} (trap : Trap) (lawful : store.Lawful reading)
    (amid : Amid stack) (waits : Waits reading ground store inner stack expect) :
    Sound reading ground ⟨store, thread, .done (.trap trap), stack, trace⟩ :=
  ⟨lawful, .trap trap waits (.inr amid)⟩

theorem kinds_of_match (agree : kindsMatch kinds values = true) : values.map kind = kinds :=
  (eq_of_beq agree).symm

/-! ## Results -/

theorem pushValues_eq (values : List Value) (payloads : Stack UInt64) :
    Admitted (values.map kind).reverse (values.map payload).reverse ∧
      (pushValues values payloads).items = (values.map payload).reverse ++ payloads.items :=
  ⟨(Admitted.of_values values).reverse, Stack.items_pushAll _ _⟩

/-- Payloads above what stood there before are read as values of the declared kinds. -/
theorem entryResults_eq (admitted : Admitted type.results.reverse given)
    (items : payloads.items = given ++ floor.items) :
    ∃ values, entryResults type floor.height payloads = (values, floor) ∧
      values.map kind = type.results := by
  refine ⟨_, Prod.ext rfl (Stack.truncate_of_items items), map_kind_valuesOf ?_⟩
  rw [Stack.above, Stack.height_of_items items, Nat.add_sub_cancel, Stack.last_of_items items,
    List.length_reverse, admitted.length, List.length_reverse]

theorem sound_resumeBody (lawful : store.Lawful reading) (idle : thread.boxes.Idle)
    (runs : RunsBody reading store thread code)
    (awaits : Awaits code floor frame results rest thread.controls)
    (admitted : Admitted results.reverse given)
    (items : thread.payloads.items = given ++ rest.items) (beneath : Waits reading ground store
      { footing thread with payloads := floor.operands, controls := floor.controls } stack
      (.body code.type.results)) :
    Sound reading ground
      (if frame.tail then ⟨leaveFrame store, leaveBody thread frame, .done .returned, stack, trace⟩
      else ⟨store, thread, .body frame, stack, trace⟩) := by
  cases ends : frame.tail with
  | false =>
    obtain ⟨_, stands⟩ := awaits.resume ends admitted items
    exact ⟨lawful, .body runs idle stands beneath⟩
  | true =>
    obtain ⟨⟨_, returned, lies⟩, opened⟩ := awaits.left ends admitted items
    have beneath : Waits reading ground (leaveFrame store)
        { footing (leaveBody thread frame) with payloads := floor.operands } stack
        (.body code.type.results) := by
      show Waits _ _ _ { thread with
        boxes := .empty, payloads := floor.operands
        controls := (left frame thread.payloads thread.controls).2 } _ _
      rw [opened]
      exact beneath.of_instances rfl
    exact ⟨lawful.of_instances rfl, .bodyReturned idle returned lies beneath⟩

/-- What waits is given what it waits for, and goes on. -/
theorem sound_receive (lawful : store.Lawful reading)
    (poised : Poised reading ground store thread (.done result) (context :: stack)) :
    Sound reading ground (receive store thread stack trace context result) := by
  cases poised with
  | values idle waits =>
    rename_i values
    generalize kinds : values.map kind = expected at waits
    cases waits with
    | unitValues runs awaits beneath =>
      obtain ⟨returned, items, returns⟩ := Compiled.returns_pushResults idle kinds thread.slots
      obtain ⟨stance, stands⟩ := awaits.resume returns items
      exact ⟨lawful, .unit ⟨runs.hosts, runs.unit⟩ stands beneath⟩
    | bodyValues runs awaits beneath =>
      obtain ⟨admitted, items⟩ := pushValues_eq values thread.payloads
      rw [kinds] at admitted
      exact sound_resumeBody trace lawful idle ⟨runs.hosts, runs.shapes⟩ awaits admitted items
        beneath
    | threadEnd _ depth idleToo beneath =>
      subst kinds
      exact ⟨lawful.of_instances rfl, .values idleToo (beneath.of_instances rfl)⟩
    | reentryEnd beneath =>
      subst kinds
      exact ⟨lawful.of_instances rfl, .values idle (beneath.of_instances rfl)⟩
    | hostCall _ honest beneath | hostInvoke _ honest beneath =>
      exact ⟨lawful, .host (honest _) idle beneath⟩
    | starting _ beneath =>
      exact ⟨lawful, .created _ idle (beneath.within (store.within_of_truncate _))⟩
  | finished idle waits =>
    cases waits with
    | hostResult beneath =>
      simp only [receive]
      split
      · rename_i agree
        exact ⟨lawful, .values idle (by rw [kinds_of_match agree]; exact beneath)⟩
      · exact .fail trace _ lawful idle beneath
  | unitReturned items returns waits =>
    cases waits with
    | unit runs awaits beneath =>
      obtain ⟨stance, stands⟩ := awaits.resume returns items
      exact ⟨lawful, .unit ⟨runs.hosts, runs.unit⟩ stands beneath⟩
    | unitEntry amid beneath =>
      obtain ⟨values, _, read, idle, kinds⟩ := returns.entryResults items
      simp only [receive, read]
      exact ⟨lawful, .values idle (by rw [kinds]; exact beneath)⟩
  | bodyReturned idle admitted items waits =>
    cases waits with
    | body runs awaits beneath =>
      exact sound_resumeBody trace lawful idle ⟨runs.hosts, runs.shapes⟩ awaits admitted items
        beneath
    | bodyEntry amid beneath =>
      rename_i given floor type
      obtain ⟨values, read, kinds⟩ := entryResults_eq admitted items
      have same : receive store thread stack trace (.bodyEntry type floor.height) .returned =
          ⟨store, { thread with payloads := floor }, .done (.values values), stack, trace⟩ := by
        simp only [receive, read]
      exact same ▸ ⟨lawful, .values idle (by rw [kinds]; exact beneath)⟩
  | trap trap waits order =>
    cases waits with
    | unit _ _ beneath | unitValues _ _ beneath =>
      exact .fault trace trap lawful beneath.amid_unit beneath
    | body _ _ beneath | bodyValues _ _ beneath =>
      exact .fault trace trap lawful beneath.amid_body beneath
    | unitEntry amid beneath | bodyEntry amid beneath => exact .fault trace trap lawful amid beneath
    | threadEnd _ depth idle beneath =>
      exact .fail trace trap (lawful.of_instances rfl) idle (beneath.of_instances rfl)
    | reentryEnd beneath =>
      obtain ⟨idle, rfl⟩ := order.resolve_right (by simp [Amid, Context.isInner])
      exact .fail trace trap (lawful.of_instances rfl) idle (beneath.of_instances rfl)
    | hostResult beneath | hostInstantiate honest beneath =>
      obtain ⟨idle, rfl⟩ := order.resolve_right (by simp [Amid, Context.isInner])
      exact .fail trace trap lawful idle beneath
    | hostCall _ honest beneath | hostInvoke _ honest beneath =>
      obtain ⟨idle, rfl⟩ := order.resolve_right (by simp [Amid, Context.isInner])
      exact ⟨lawful, .host (honest _) idle beneath⟩
    | starting _ beneath =>
      obtain ⟨idle, rfl⟩ := order.resolve_right (by simp [Amid, Context.isInner])
      exact ⟨lawful.truncate _, .created _ idle beneath⟩
  | created _ idle waits =>
    cases waits with
    | hostInstantiate honest beneath => exact ⟨lawful, .host (honest _) idle beneath⟩

/-! ## Starts -/

section Starts

variable {source : Module} {program : Program} {function : Nat} {callee : FunctionType}

theorem Hosts.exists_enter (hosts : Hosts reading store thread source)
    (lawful : store.Lawful reading) (has : thread.program = some program)
    (declared : source.functionType function = some callee)
    (items : thread.slots.items = args ++ rest.items)
    (passes : Compiled.Passes callee args thread.boxes) :
    ∃ code frame stance, thread.program.bind (·.units[function]?) = some code.unit ∧
      code.unit.signature = callee ∧ Compiled.enter code.unit thread.slots = (frame, rest) ∧
      RunsUnit reading store thread code ∧
      Compiled.Stands code rest frame stance rest thread.boxes := by
  obtain ⟨live, found, rfl, stands⟩ := hosts
  obtain ⟨code, unit, origin, rfl, rfl⟩ := (lawful.reads found).exists_unit (stands has) declared
  obtain ⟨frame, stance, entered, standing⟩ := Compiled.exists_enter passes items
  refine ⟨code, frame, stance, ?_, rfl, entered,
    ⟨⟨live, found, origin.symm, by rw [origin]; exact stands⟩, program, has, unit⟩, standing⟩
  rw [has]
  exact unit

theorem sound_enterUnit (lawful : store.Lawful reading) (hosts : Hosts reading store thread source)
    (has : thread.program = some program) (declared : source.functionType function = some callee)
    (items : thread.slots.items = args ++ rest.items)
    (passes : Compiled.Passes callee args thread.boxes)
    (waits : Waits reading ground store { footing thread with slots := rest }
      (wait :: stack) (.unit callee)) :
    Sound reading ground (enterUnit store thread stack trace function wait) := by
  obtain ⟨amid, _, _, beneath⟩ := waits.beneath_unit
  unfold enterUnit
  split
  · exact .fault trace _ lawful amid beneath
  · obtain ⟨_, _, _, chosen, rfl, entered, runs, standing⟩ :=
      hosts.exists_enter lawful has declared items passes
    simp only [chosen, entered]
    exact ⟨lawful.of_instances rfl, .unit ⟨runs.hosts, runs.unit⟩ standing (waits.of_instances rfl)⟩

theorem sound_startUnit (lawful : store.Lawful reading)
    (hosts : Hosts reading store thread source) (has : thread.program = some program)
    (declared : source.functionType function = some callee) (idle : thread.boxes.Idle)
    (kinds : args.map kind = callee.params) (amid : Amid stack)
    (waits : Waits reading ground store (footing thread) stack (.values callee.results)) :
    Sound reading ground (startUnit store thread stack trace function args) := by
  obtain ⟨live, found, rfl, stands⟩ := hosts
  obtain ⟨code, unit, _, rfl, rfl⟩ := (lawful.reads found).exists_unit (stands has) declared
  have chosen : thread.program.bind (·.units[code.function]?) = some code.unit := by
    rw [has]
    exact unit
  obtain ⟨slots, items, passes⟩ := Compiled.passes_pushArguments idle kinds thread.slots
  simp only [startUnit, chosen]
  exact sound_enterUnit trace lawful ⟨live, found, rfl, stands⟩ has declared items passes
    (.unitEntry amid waits)

theorem sound_enterBody (lawful : store.Lawful reading) (hosts : Hosts reading store thread source)
    (defined : source.importCount ≤ function)
    (declared : source.functionType function = some callee) (idle : thread.boxes.Idle)
    (admitted : Admitted callee.params.reverse args)
    (items : thread.payloads.items = args ++ rest.items)
    (waits : Waits reading ground store { footing thread with payloads := rest }
      (wait :: stack) (.body callee.results)) :
    Sound reading ground (enterBody store thread stack trace source function wait) := by
  obtain ⟨amid, _, _, beneath⟩ := waits.beneath_body
  unfold enterBody
  split
  · exact .fault trace _ lawful amid beneath
  · obtain ⟨live, found, rfl, stands⟩ := hosts
    obtain ⟨_, ⟨_, shapes⟩, origin, rfl, rfl⟩ := (lawful.reads found).exists_code defined declared
    obtain ⟨_, _, entered, _, standing⟩ := exists_enter thread.controls admitted items
    rw [← origin]
    simp only [entered]
    exact ⟨lawful.of_instances rfl, .body
      ⟨⟨live, found, origin.symm, by rw [origin]; exact stands⟩, shapes⟩ idle standing
      (waits.of_instances rfl)⟩

theorem sound_startBody (lawful : store.Lawful reading)
    (hosts : Hosts reading store thread source) (defined : source.importCount ≤ function)
    (declared : source.functionType function = some callee) (idle : thread.boxes.Idle)
    (kinds : args.map kind = callee.params) (amid : Amid stack)
    (waits : Waits reading ground store (footing thread) stack (.values callee.results)) :
    Sound reading ground (startBody store thread stack trace function args) := by
  have home := hosts
  obtain ⟨_, found, rfl, _⟩ := hosts
  obtain ⟨admitted, items⟩ := pushValues_eq args thread.payloads
  rw [kinds] at admitted
  simp only [startBody, Store.look, found, declared, Option.getD_some]
  exact sound_enterBody trace lawful home defined declared idle admitted items
    (.bodyEntry amid waits)

theorem sound_startEngine {id : Nat}
    (lawful : store.Lawful reading) (found : store.instances[id]? = some live)
    (stands : ∀ {program}, engine = .compiled program →
      Lowering.Runnable live.source (reading live.source) program)
    (declared : live.source.functionType function = some callee) (idle : thread.boxes.Idle)
    (kinds : args.map kind = callee.params)
    (waits : Waits reading ground store (footing thread) stack (.values callee.results)) :
    Sound reading ground (startEngine store thread stack trace engine id function args) := by
  have ends (inner : Thread) : Waits reading ground store inner
      (.threadEnd thread store.depth :: stack) (.values callee.results) :=
    .threadEnd inner store.depth idle waits
  have amid : Amid (.threadEnd thread store.depth :: stack) := .inr ⟨_, _, rfl⟩
  cases engine with
  | compiled program =>
    exact sound_startUnit trace lawful
      ⟨live, found, rfl, fun has => by cases has; exact stands rfl⟩ rfl declared
      Boxes.idle_empty kinds amid (ends _)
  | interpreted =>
    simp only [startEngine, Store.look, found]
    split
    · exact ⟨lawful, .callImport idle waits (waits.answers found declared)⟩
    · rename_i defined
      exact sound_startBody trace lawful ⟨live, found, rfl, fun has => by cases has⟩
        (Nat.not_lt.mp defined) declared Boxes.idle_empty kinds amid (ends _)

theorem sound_startCall {id : Nat} (lawful : store.Lawful reading) (idle : thread.boxes.Idle)
    (waits : Waits reading ground store (footing thread) stack (.values kinds))
    (answers : ∀ {live : Instance} {type : FunctionType}, store.instances[id]? = some live →
      live.source.functionType function = some type →
      Waits reading ground store (footing thread) stack (.values type.results)) :
    Sound reading ground (startCall store thread stack trace id function args) := by
  unfold startCall
  cases found : store.instances[id]? with
  | none => exact .fail trace _ lawful idle waits
  | some live =>
    cases declared : live.source.functionType function with
    | none =>
      simp only [declared]
      exact .fail trace _ lawful idle waits
    | some type =>
      simp only [declared]
      split
      · exact .fail trace _ lawful idle waits
      · rename_i agree
        split
        · exact .fail trace _ lawful idle waits
        · exact sound_startEngine trace (lawful.of_instances rfl) found (lawful.runs found) declared
            idle (kinds_of_match (by simpa using agree))
            (.reentryEnd ((answers found declared).of_instances rfl))

theorem sound_startImport {id : Nat} (lawful : store.Lawful reading) (idle : thread.boxes.Idle)
    (waits : Waits reading ground store (footing thread) stack (.values kinds))
    (answers : ∀ {live type}, store.instances[id]? = some live →
      live.source.functionType function = some type →
      Waits reading ground store (footing thread) stack (.values type.results)) :
    Sound reading ground (startImport store thread stack trace id function args) := by
  unfold startImport
  cases found : store.instances[id]? with
  | none => exact .fail trace _ lawful idle waits
  | some live =>
    cases linked : live.imports[function]? with
    | none =>
      simp only [linked]
      exact .fail trace _ lawful idle waits
    | some target =>
      obtain ⟨type, declared, links⟩ := lawful.links found linked
      cases target with
      | function =>
        obtain ⟨_, _, there, typed⟩ := links
        simp only [linked]
        exact ⟨lawful, .call idle waits ((answers found declared).answers there typed)⟩
      | host =>
        obtain ⟨rfl, honest⟩ := links
        simp only [linked]
        split
        · exact .fail trace _ lawful idle waits
        · exact ⟨lawful.of_instances rfl, .host (honest args) idle
            (.hostResult (.reentryEnd ((answers found declared).of_instances rfl)))⟩

theorem sound_startInstance (lawful : store.Lawful reading) (reads : source.Reads reading)
    (honest : imports.Honest reading) (stands : ∀ {program}, engine = .ok (.compiled program) →
      Lowering.Runnable source (reading source) program) (idle : thread.boxes.Idle)
    (waits : Waits reading ground store (footing thread) stack .created) : Sound reading ground
      (startInstance store thread stack trace source imports engine) := by
  rw [startInstance_eq]
  split
  · exact ⟨lawful, .created _ idle waits⟩
  · rename_i live made
    obtain ⟨engine, rfl, prepared⟩ := bind_eq_ok.mp made
    have lawful := lawful.push reads (fun same => stands (congrArg _ same)) honest
      (Store.prepares_of_prepare reads.typed prepared)
    split
    · exact ⟨lawful, .created _ idle (waits.within (store.within_push _))⟩
    · have back := waits.of_instances (store.instances_truncate_push live)
      exact ⟨lawful, .call idle (.starting [] back) fun _ _ => .starting _ back⟩

end Starts

/-! ## Moves -/

/-- What a unit asks for: a call whose arguments travel as values. -/
def asking (store : Store) (thread : Thread) (stack : List Context) (trace : List HostCall)
    (args : List Value) : Compiled.Target → World
  | .interpreted function => startBody store thread stack trace function args
  | .imported function => ⟨store, thread, .callImport thread.owner function args, stack, trace⟩
  | .foreign id function => ⟨store, thread, .call id function args, stack, trace⟩

theorem moveUnit_ask (store : Store) (thread : Thread) (stack : List Context)
    (trace : List HostCall) (frame : Compiled.Frame) (target : Compiled.Target)
    (args : List Value) (type : FunctionType) :
    moveUnit store thread stack trace (.ok (.ask frame target args type)) =
      asking store thread (.unitValues frame type :: stack) trace args target := by
  cases target <;> rfl

variable (lawful : store.Lawful reading)

include lawful

theorem sound_asking (hosts : Hosts reading store thread source)
    (answers : Compiled.Answers source store callee target) (idle : thread.boxes.Idle)
    (kinds : args.map kind = callee.params) (amid : Amid stack)
    (waits : Waits reading ground store (footing thread) stack (.values callee.results)) :
    Sound reading ground (asking store thread stack trace args target) := by
  cases target with
  | interpreted function =>
    exact sound_startBody trace lawful hosts answers.1 answers.2 idle kinds amid waits
  | imported function =>
    obtain ⟨live, found, origin, _⟩ := hosts
    exact ⟨lawful, .callImport idle waits (waits.answers found (origin ▸ answers.2))⟩
  | foreign _ function =>
    obtain ⟨live, found, declared⟩ := answers
    exact ⟨lawful, .call idle waits (waits.answers found declared)⟩

/-- What a unit does next keeps to the types. -/
theorem sound_moveUnit (runs : RunsUnit reading store thread code)
    (goes : Compiled.Goes code floor (move, scene)) (same : scene.store = store)
    (boxes : scene.boxes = thread.boxes) (slots : scene.operands = thread.slots)
    (waits : Waits reading ground store { footing thread with slots := floor } stack
      (.unit code.unit.signature)) :
    Sound reading ground (moveUnit store thread stack trace move) := by
  subst same
  cases goes with
  | trap => exact .fault trace _ lawful waits.amid_unit waits
  | run stands =>
    rw [boxes, slots] at stands
    exact ⟨lawful, .unit runs stands waits⟩
  | leave items returns =>
    rw [slots] at items
    rw [boxes] at returns
    exact ⟨lawful.of_instances rfl, .unitReturned items returns (waits.of_instances rfl)⟩
  | call declared items passes awaits =>
    rw [slots] at items
    rw [boxes] at passes
    obtain ⟨program, has, unit⟩ := runs.unit
    exact sound_enterUnit trace lawful runs.hosts has declared items passes
      (.unit ⟨runs.hosts, program, has, unit⟩ awaits waits)
  | ask answers kinds idle awaits =>
    rw [boxes] at idle
    rw [slots] at awaits
    exact sound_asking trace lawful runs.hosts answers idle kinds (.inl rfl)
      (.unitValues ⟨runs.hosts, runs.unit⟩ awaits waits)

/-- What a body does next keeps to the types. -/
theorem sound_moveBody (runs : RunsBody reading store thread code)
    (idle : thread.boxes.Idle) (goes : Goes code floor (move, scene))
    (same : scene.store = store) (payloads : scene.operands = thread.payloads)
    (controls : scene.controls = thread.controls) (waits : Waits reading ground store
      { footing thread with payloads := floor.operands, controls := floor.controls } stack
      (.body code.type.results)) :
    Sound reading ground (moveBody store thread stack trace move) := by
  subst same
  -- A frame that hands values over waits for values.
  have halts {frame : Frame} {callee : FunctionType}
      (awaits : Awaits code floor frame callee.results scene.operands
        scene.controls) : Waits reading ground scene.store (footing thread)
          (.body frame :: stack) (.values callee.results) := by
    rw [payloads, controls] at awaits
    exact .bodyValues ⟨runs.hosts, runs.shapes⟩ awaits waits
  obtain ⟨_, found, origin, _⟩ := runs.hosts
  cases goes with
  | trap => exact .fault trace _ lawful waits.amid_body waits
  | run stands =>
    rw [payloads, controls] at stands
    exact ⟨lawful, .body runs idle stands waits⟩
  | leave returned opened =>
    obtain ⟨_, admitted, items⟩ := returned
    rw [payloads] at items
    rw [controls] at opened
    refine ⟨lawful.of_instances rfl, .bodyReturned idle admitted items ?_⟩
    rw [← opened] at waits
    exact waits.of_instances rfl
  | call defined declared admitted items awaits =>
    rw [payloads] at items
    rw [controls] at awaits
    simp only [moveBody, awaits.runs.source]
    exact sound_enterBody trace lawful runs.hosts defined declared idle admitted items
      (.body ⟨runs.hosts, runs.shapes⟩ awaits waits)
  | compiled defined declared kinds awaits =>
    simp only [moveBody]
    split
    · rename_i has
      obtain ⟨_, has⟩ := Option.isSome_iff_exists.mp has
      exact sound_startUnit trace lawful runs.hosts has declared idle kinds (.inl rfl)
        (halts awaits)
    · exact ⟨lawful, .call idle (halts awaits) ((halts awaits).answers found (origin ▸ declared))⟩
  | imported _ declared kinds awaits =>
    exact ⟨lawful, .callImport idle (halts awaits)
      ((halts awaits).answers found (origin ▸ declared))⟩
  | foreign there declared kinds awaits =>
    exact ⟨lawful, .call idle (halts awaits) ((halts awaits).answers there declared)⟩

/-- What a host function asks for keeps to the types. -/
theorem sound_stepHost (honest : program.Honest reading) (idle : thread.boxes.Idle)
    (waits : Waits reading ground store (footing thread) stack .host) :
    Sound reading ground (stepHost store thread stack trace program) := by
  cases honest with
  | finish outcome =>
    cases outcome with
    | ok => exact ⟨lawful, .finished idle waits⟩
    | error trap => exact .fail trace trap lawful idle waits
  | call next =>
    exact ⟨lawful, .call idle (.hostCall [] next waits) fun _ _ => .hostCall _ next waits⟩
  | invoke next =>
    unfold stepHost
    dsimp only
    split
    · exact ⟨lawful, .host (next _) idle waits⟩
    · exact ⟨lawful, .call idle (.hostInvoke [] next waits) fun _ _ => .hostInvoke _ next waits⟩
  | instantiate reads imports next =>
    exact sound_startInstance trace lawful reads imports reads.runnable_of_engine idle
      (.hostInstantiate next waits)
  | instantiateCompiled reads imports next =>
    exact sound_startInstance trace lawful reads.1 imports reads.runnable_of_load idle
      (.hostInstantiate next waits)
  | changeMemory next =>
    rename_i id change _
    unfold stepHost
    dsimp only
    split
    · exact ⟨lawful, .host (next _) idle waits⟩
    · have continues := store.continues_access id (Instance.gentle_changeMemory change).lasting
      have lawful := lawful.of_holds continues.holds
        (lawful.sound.access id fun _ => (Instance.gentle_changeMemory change).preserves)
      exact ⟨lawful, .host (next _) idle (waits.within continues.holds.within)⟩
  | observe next => exact ⟨lawful, .host (next _) idle waits⟩
  | interrupt next => exact ⟨lawful.of_instances rfl, .host next idle (waits.of_instances rfl)⟩

end Steps

/-! ## Runs -/

section Runs

variable {reading : Module → Binary.Sections} {ground : Ground} {world : World}

theorem step_unit {store : Store} {thread : Thread} {stack : List Context} {trace : List HostCall}
    (stepped : Compiled.step ⟨thread.owner, (thread.program.map Program.dispatch).getD #[],
      thread.boxes, thread.slots, store⟩ frame = (move, scene)) :
    World.step ⟨store, thread, .unit frame, stack, trace⟩ = moveUnit scene.store
      { thread with owner := scene.owner, boxes := scene.boxes, slots := scene.operands } stack
      trace move := by
  simp only [World.step, stepped]

theorem step_body {store : Store} {thread : Thread} {stack : List Context} {trace : List HostCall}
    (stepped : Interpreted.step ⟨thread.owner, thread.payloads, thread.controls, store⟩ frame =
      (move, scene)) : World.step ⟨store, thread, .body frame, stack, trace⟩ = moveBody scene.store
      { thread with owner := scene.owner, payloads := scene.operands, controls := scene.controls }
      stack trace move := by
  simp only [World.step, stepped]

/-- A unit that runs goes on in one of the ways that its type allows. -/
theorem Poised.unit_goes {store : Store} {thread : Thread} {stack : List Context}
    (lawful : store.Lawful reading)
    (poised : Poised reading ground store thread (.unit frame) stack)
    (stepped : Compiled.step ⟨thread.owner, (thread.program.map Program.dispatch).getD #[],
      thread.boxes, thread.slots, store⟩ frame = (move, scene)) :
    ∃ code floor, scene.owner = thread.owner ∧ store.Holds scene.store ∧
      scene.store.Lawful reading ∧ RunsUnit reading scene.store thread code ∧
      Compiled.Goes code floor (move, scene) ∧
      Waits reading ground scene.store { footing thread with slots := floor } stack
        (.unit code.unit.signature) := by
  cases poised with
  | unit runs stands waits =>
    rename_i code floor _
    obtain ⟨_, found, origin, standsFor⟩ := runs.hosts
    obtain ⟨program, has, _⟩ := runs.unit
    have dispatch : (thread.program.map Program.dispatch).getD #[] =
        code.source.dispatchTables := by
      rw [has]
      exact (standsFor has).dispatch
    let before : Compiled.Scene :=
      ⟨thread.owner, (thread.program.map Program.dispatch).getD #[], thread.boxes, thread.slots,
        store⟩
    have goes : Compiled.Goes code floor (Compiled.step before frame) :=
      Compiled.goes_step found dispatch stands
    have inOrder : (Compiled.step before frame).2.store.Sound :=
      Compiled.sound_step found origin lawful.sound stands
    have holds := (Compiled.stays_step before frame).store.holds
    have owner := (Compiled.stays_step before frame).owner
    rw [stepped] at goes inOrder holds owner
    exact ⟨code, floor, owner, holds, lawful.of_holds holds inOrder, runs.within holds.within,
      goes, waits.within holds.within⟩

theorem Poised.body_goes {store : Store} {thread : Thread} {stack : List Context}
    (lawful : store.Lawful reading)
    (poised : Poised reading ground store thread (.body frame) stack)
    (stepped : Interpreted.step ⟨thread.owner, thread.payloads, thread.controls, store⟩ frame =
      (move, scene)) : ∃ code floor, scene.owner = thread.owner ∧ store.Holds scene.store ∧
      scene.store.Lawful reading ∧ RunsBody reading scene.store thread code ∧
      thread.boxes.Idle ∧ Interpreted.Goes code floor (move, scene) ∧
      Waits reading ground scene.store
        { footing thread with payloads := floor.operands, controls := floor.controls } stack
        (.body code.type.results) := by
  cases poised with
  | body runs idle stands waits =>
    rename_i code floor _
    obtain ⟨_, found, origin, _⟩ := runs.hosts
    let before : Interpreted.Scene := ⟨thread.owner, thread.payloads, thread.controls, store⟩
    have goes : Interpreted.Goes code floor (Interpreted.step before frame) :=
      Interpreted.goes_step found origin (lawful.sound _ _ found) stands
    have inOrder : (Interpreted.step before frame).2.store.Sound :=
      Interpreted.sound_step found origin lawful.sound stands
    have holds := (Interpreted.stays_step before frame).store.holds
    have owner := (Interpreted.stays_step before frame).owner
    rw [stepped] at goes inOrder holds owner
    exact ⟨code, floor, owner, holds, lawful.of_holds holds inOrder, runs.within holds.within,
      idle, goes, waits.within holds.within⟩

/-- A step keeps to the types. -/
theorem Sound.step (sound : Sound reading ground world) : Sound reading ground world.step := by
  obtain ⟨store, thread, control, stack, trace⟩ := world
  obtain ⟨lawful, poised⟩ := sound
  cases control with
  | unit frame =>
    obtain ⟨⟨move, scene⟩, stepped⟩ : ∃ result, Compiled.step ⟨thread.owner,
      (thread.program.map Program.dispatch).getD #[], thread.boxes, thread.slots, store⟩ frame =
        result := ⟨_, rfl⟩
    obtain ⟨code, floor, owner, _, lawful, runs, goes, waits⟩ := poised.unit_goes lawful stepped
    rw [step_unit stepped, owner]
    exact sound_moveUnit trace lawful ⟨runs.hosts, runs.unit⟩ goes rfl rfl rfl waits
  | body frame =>
    obtain ⟨⟨move, scene⟩, stepped⟩ : ∃ result, Interpreted.step ⟨thread.owner, thread.payloads,
      thread.controls, store⟩ frame = result := ⟨_, rfl⟩
    obtain ⟨code, floor, owner, _, lawful, runs, idle, goes, waits⟩ :=
      poised.body_goes lawful stepped
    rw [step_body stepped, owner]
    exact sound_moveBody trace lawful ⟨runs.hosts, runs.shapes⟩ idle goes rfl rfl rfl waits
  | host program =>
    cases poised with
    | host honest idle waits => exact sound_stepHost trace lawful honest idle waits
  | call id function args =>
    cases poised with
    | call idle waits answers => exact sound_startCall trace lawful idle waits answers
  | callImport id function args =>
    cases poised with
    | callImport idle waits answers => exact sound_startImport trace lawful idle waits answers
  | done result =>
    cases stack with
    | nil => exact ⟨lawful, poised⟩
    | cons => exact sound_receive trace lawful poised

theorem Sound.iterate (sound : Sound reading ground world) (count : Nat) :
    Sound reading ground (World.step^[count] world) := by
  induction count with
  | zero => exact sound
  | succ count ih =>
    rw [Function.iterate_succ_apply']
    exact ih.step

end Runs

/-! ## Operations -/

section Operations

variable (reading : Module → Binary.Sections)

/-- An operation brings in only modules that are read. One that runs an engine gives it arguments of
the kinds that the function takes, and compiled code of the module of the instance. -/
def Operation.Honest (store : Store) : Operation → Prop
  | .call _ _ _ | .callImport _ _ _ => True
  | .runEngine engine id function args =>
    ∃ live type, store.instances[id]? = some live ∧
      live.source.functionType function = some type ∧
      args.map Value.kind = type.params ∧
      ∀ {program : Program}, engine = .compiled program → ∃ compiled : CompiledModule,
        compiled.Reads reading ∧ compiled.source = live.source ∧
          Program.load compiled = .ok program
  | .instantiate source imports _ => source.Reads reading ∧ imports.Honest reading
  | .instantiateCompiled compiled imports => compiled.Reads reading ∧ imports.Honest reading

/-- The moments of a store that begins empty: what runs takes a step, an interrupt is asked for, or
nothing runs and an operation starts or a memory is changed from outside. -/
inductive Arises : World → Prop where
  | first {store : Store} : store.instances = #[] → Arises (idle store)
  | step {world : World} : Arises world → world.result? = none → Arises world.step
  | start {world : World} (operation : Operation) : Arises world → world.result?.isSome →
      operation.Honest reading world.store → Arises (operation.start world.store)
  | interrupt : Arises world → Arises { world with store := world.store.requestInterrupt }
  | memory (id : Nat) (change : Memory → Except Trap Memory) : Arises world →
      world.result?.isSome → Arises (idle (world.store.access id (Instance.changeMemory change)).2)

variable {reading} {store : Store} {world : World}

theorem sound_idle (lawful : store.Lawful reading) : Sound reading ⟨{}, .body []⟩ (idle store) :=
  ⟨lawful, @Poised.bodyReturned _ _ _ _ _ _ [] .empty Boxes.idle_empty .nil rfl
    (.ground store rfl rfl)⟩

theorem exists_ground (store : Store) (id function : Nat) :
    ∃ kinds, ∀ {live type}, store.instances[id]? = some live →
      live.source.functionType function = some type → type.results = kinds := by
  cases found : store.instances[id]? with
  | none => exact ⟨[], fun found => by cases found⟩
  | some live =>
    cases typed : live.source.functionType function with
    | none =>
      refine ⟨[], fun here declared => ?_⟩
      cases here
      cases typed.symm.trans declared
    | some type =>
      refine ⟨type.results, fun here declared => ?_⟩
      cases here
      cases typed.symm.trans declared
      rfl

theorem sound_start {operation : Operation} (lawful : store.Lawful reading)
    (honest : operation.Honest reading store) :
    ∃ ground, Sound reading ground (operation.start store) := by
  cases operation with
  | call id function args =>
    obtain ⟨kinds, same⟩ := exists_ground store id function
    exact ⟨⟨{}, .values kinds⟩, lawful, .call Boxes.idle_empty (.ground store rfl rfl)
      fun found typed => .ground store rfl (by rw [same found typed])⟩
  | callImport id function args =>
    obtain ⟨kinds, same⟩ := exists_ground store id function
    exact ⟨⟨{}, .values kinds⟩, lawful, .callImport Boxes.idle_empty (.ground store rfl rfl)
      fun found typed => .ground store rfl (by rw [same found typed])⟩
  | runEngine engine id function args =>
    obtain ⟨live, type, found, typed, kinds, made⟩ := honest
    have stands {program : Program} (chosen : engine = .compiled program) :
        Lowering.Runnable live.source (reading live.source) program := by
      obtain ⟨compiled, reads, same, loaded⟩ := made chosen
      rw [← same]
      exact reads.runnable_of_load (by rw [loaded]; rfl)
    exact ⟨⟨{}, .values type.results⟩, sound_startEngine [] lawful found
      stands typed Boxes.idle_empty kinds
      (.ground store rfl rfl)⟩
  | instantiate source imports engine =>
    exact ⟨⟨{}, .created⟩, sound_startInstance [] lawful honest.1 honest.2
      honest.1.runnable_of_engine Boxes.idle_empty (.ground store rfl rfl)⟩
  | instantiateCompiled compiled imports =>
    exact ⟨⟨{}, .created⟩, sound_startInstance [] lawful honest.1.1 honest.2
      honest.1.runnable_of_load Boxes.idle_empty (.ground store rfl rfl)⟩

theorem Sound.requestInterrupt (sound : Sound reading ground world) :
    Sound reading ground { world with store := world.store.requestInterrupt } := by
  obtain ⟨store, thread, control, stack, trace⟩ := world
  obtain ⟨lawful, poised⟩ := sound
  refine ⟨lawful.of_instances rfl, ?_⟩
  have still {thread stack expect} (waits : Waits reading ground store thread stack expect) :
      Waits reading ground store.requestInterrupt thread stack expect := waits.of_instances rfl
  cases poised with
  | unit runs stands waits => exact .unit ⟨runs.hosts, runs.unit⟩ stands (still waits)
  | body runs idle stands waits =>
    exact .body ⟨runs.hosts, runs.shapes⟩ idle stands (still waits)
  | host honest idle waits => exact .host honest idle (still waits)
  | call idle waits answers =>
    exact .call idle (still waits) fun found declared => still (answers found declared)
  | callImport idle waits answers =>
    exact .callImport idle (still waits) fun found declared => still (answers found declared)
  | values idle waits => exact .values idle (still waits)
  | finished idle waits => exact .finished idle (still waits)
  | unitReturned items returns waits => exact .unitReturned items returns (still waits)
  | bodyReturned idle given items waits => exact .bodyReturned idle given items (still waits)
  | trap cause waits clean => exact .trap cause (still waits) clean
  | created outcome idle waits => exact .created outcome idle (still waits)

/-- Every moment of a store keeps to the types. -/
theorem Arises.sound (arises : Arises reading world) : ∃ ground, Sound reading ground world := by
  induction arises with
  | first empty =>
    refine ⟨_, sound_idle ⟨?_, fun id _ => ?_, ?_, ?_⟩⟩
    all_goals
      rw [empty]
      simp
  | step _ _ ih =>
    obtain ⟨ground, sound⟩ := ih
    exact ⟨ground, sound.step⟩
  | start _ _ _ honest ih =>
    obtain ⟨ground, sound⟩ := ih
    exact sound_start sound.lawful honest
  | interrupt _ ih =>
    obtain ⟨ground, sound⟩ := ih
    exact ⟨ground, sound.requestInterrupt⟩
  | @memory world id change _ _ ih =>
    obtain ⟨ground, sound⟩ := ih
    have continues := world.store.continues_access id (Instance.gentle_changeMemory change).lasting
    exact ⟨_, sound_idle (sound.lawful.of_holds continues.holds
      (sound.lawful.sound.access id fun _ => (Instance.gentle_changeMemory change).preserves))⟩

/-- What runs goes on until it has ended. -/
theorem Arises.iterate (arises : Arises reading world)
    (busy : ∀ earlier < count, (World.step^[earlier] world).result? = none) :
    Arises reading (World.step^[count] world) := by
  induction count with
  | zero => exact arises
  | succ count ih =>
    rw [Function.iterate_succ_apply']
    exact .step (ih fun earlier _ => busy earlier (by omega))
      (busy count (Nat.lt_succ_self _))

end Operations

end TwinEngine.World
