import TwinEngine.Engine.Compiled
import TwinEngine.Engine.Interpreted
import TwinEngine.Instantiation

/-!
Contract: runs of a store.

Owns: the state of a run, its single step, and the operations of a store that run code.

A run has one thing that it does now and a stack of contexts that wait. Frames of both engines,
calls into the store and host functions all wait on that one stack. A thread is the part of the
stack that one call into an instance makes; a trap ends a thread as a whole, and the context
beneath it learns of it.
-/

namespace TwinEngine

open Machine (Boxes LoadedUnit)

/-- The code that runs in an instance: its compiled program, unless the interpreter runs all of it,
and what its frames share. Units share the boxes that are in use and the operand slots, interpreted
bodies the operand payloads and the open blocks. -/
structure Thread where
  owner : Nat := 0
  program : Option Program := none
  boxes : Boxes := .empty
  slots : Stack UInt32 := .empty
  payloads : Stack UInt64 := .empty
  controls : Stack Interpreted.Control := .empty
deriving Inhabited

/-- What comes back to a waiting context. What a frame returns is left on the operands. -/
inductive Delivery where
  | returned
  | values (values : List Value)
  | trap (trap : Trap)
  | created (outcome : Except Error Nat)

/-- Something that waits: a unit for a unit or for values, an interpreted body, the places where a
call entered either engine, a thread or the store, a host function, or an instance that starts. An
entry knows the height of the operands beneath it. -/
inductive Context where
  | unit (frame : Compiled.Frame)
  | unitValues (frame : Compiled.Frame) (type : FunctionType)
  | unitEntry (type : FunctionType) (base : Nat)
  | body (frame : Interpreted.Frame)
  | bodyEntry (type : FunctionType) (base : Nat)
  | threadEnd (thread : Thread) (depth : Nat)
  | reentryEnd
  | hostResult (type : FunctionType)
  | hostCall (next : Except Trap (List Value) → HostProgram)
  | hostInvoke (next : Except Error (List Value) → HostProgram)
  | hostInstantiate (next : Except Error Nat → HostProgram)
  | starting (id : Nat)

/-- What a run does now. When it has done something, the result is for what waits. -/
inductive Control where
  | unit (frame : Compiled.Frame)
  | body (frame : Interpreted.Frame)
  | host (program : HostProgram)
  | call (id function : Nat) (arguments : List Value)
  | callImport (id function : Nat) (arguments : List Value)
  | done (result : Delivery)

/-- The state of a run. `trace` holds the calls of host functions, the last one first. -/
structure World where
  store : Store
  thread : Thread
  control : Control
  stack : List Context
  trace : List HostCall

namespace World

def leaveFrame (store : Store) : Store := { store with depth := store.depth - 1 }

def leaveBody (thread : Thread) (frame : Interpreted.Frame) : Thread :=
  let (payloads, controls) := Interpreted.left frame thread.payloads thread.controls
  { thread with payloads, controls }

/-- Give a result to the context that waits for it. It goes on, or it passes a result to what waits
beneath it. A trap passes by every frame; counts of frames and entries are put back on the way. -/
def receive (store : Store) (thread : Thread) (stack : List Context) (trace : List HostCall) :
    Context → Delivery → World
  | .threadEnd outer depth, result => ⟨{ store with depth }, outer, .done result, stack, trace⟩
  | .reentryEnd, result =>
    ⟨{ store with reentry := store.reentry - 1 }, thread, .done result, stack, trace⟩
  | .hostResult type, .values values =>
    if kindsMatch type.results values then ⟨store, thread, .done (.values values), stack, trace⟩
    else ⟨store, thread, .done (.trap (.host (.resultKinds type values))), stack, trace⟩
  | .hostCall next, .values values => ⟨store, thread, .host (next (.ok values)), stack, trace⟩
  | .hostCall next, .trap trap => ⟨store, thread, .host (next (.error trap)), stack, trace⟩
  | .hostInvoke next, .values values => ⟨store, thread, .host (next (.ok values)), stack, trace⟩
  | .hostInvoke next, .trap trap =>
    ⟨store, thread, .host (next (.error (.trap trap))), stack, trace⟩
  | .hostInstantiate next, .created outcome =>
    ⟨store, thread, .host (next outcome), stack, trace⟩
  | .starting id, .values _ => ⟨store, thread, .done (.created (.ok id)), stack, trace⟩
  | .starting id, .trap trap =>
    ⟨store.truncate id, thread, .done (.created (.error (.trap trap))), stack, trace⟩
  | .unit frame, .returned => ⟨store, thread, .unit frame, stack, trace⟩
  | .unitValues frame type, .values values =>
    match thread with
    | { owner, program, boxes, slots, payloads, controls } =>
      let (boxes, slots) := Compiled.pushResults boxes type values slots
      ⟨store, ⟨owner, program, boxes, slots, payloads, controls⟩, .unit frame, stack, trace⟩
  | .unitEntry type base, .returned =>
    match thread with
    | { owner, program, boxes, slots, payloads, controls } =>
      match Compiled.entryResults boxes type base slots with
      | .ok (values, boxes, slots) =>
        ⟨store, ⟨owner, program, boxes, slots, payloads, controls⟩, .done (.values values),
          stack, trace⟩
      | .error trap =>
        ⟨store, ⟨owner, program, boxes, slots, payloads, controls⟩, .done (.trap trap), stack,
          trace⟩
  | .body frame, .returned =>
    if frame.tail then ⟨leaveFrame store, leaveBody thread frame, .done .returned, stack, trace⟩
    else ⟨store, thread, .body frame, stack, trace⟩
  | .body frame, .values values =>
    let thread := { thread with payloads := Interpreted.pushValues values thread.payloads }
    if frame.tail then ⟨leaveFrame store, leaveBody thread frame, .done .returned, stack, trace⟩
    else ⟨store, thread, .body frame, stack, trace⟩
  | .bodyEntry type base, .returned =>
    let (values, payloads) := Interpreted.entryResults type base thread.payloads
    ⟨store, { thread with payloads }, .done (.values values), stack, trace⟩
  | _, .trap trap => ⟨store, thread, .done (.trap trap), stack, trace⟩
  | _, _ => ⟨store, thread, .done (.trap (.host .noSuspendedFrame)), stack, trace⟩

def tooDeep (store : Store) : Bool := store.limits.callDepth ≤ store.depth

/-- Start a unit, which takes its arguments from the operands, while the given context waits. -/
def enterUnit (store : Store) (thread : Thread) (stack : List Context) (trace : List HostCall)
    (function : Nat) (wait : Context) : World :=
  if tooDeep store then ⟨store, thread, .done (.trap .callStackExhausted), stack, trace⟩
  else
    match thread.program.bind (·.units[function]?) with
    | none => ⟨store, thread, .done (.trap (.unknownFunction function)), stack, trace⟩
    | some unit =>
      match thread with
      | { owner, program, boxes, slots, payloads, controls } =>
        let (frame, slots) := Compiled.enter unit slots
        ⟨{ store with depth := store.depth + 1 },
          ⟨owner, program, boxes, slots, payloads, controls⟩, .unit frame, wait :: stack, trace⟩

def startUnit (store : Store) (thread : Thread) (stack : List Context) (trace : List HostCall)
    (function : Nat) (arguments : List Value) : World :=
  match thread.program.bind (·.units[function]?) with
  | none => ⟨store, thread, .done (.trap (.unknownFunction function)), stack, trace⟩
  | some unit =>
    let base := thread.slots.height
    let (boxes, slots) :=
      Compiled.pushArguments thread.boxes unit.signature arguments thread.slots
    enterUnit store { thread with boxes, slots } stack trace function
      (.unitEntry unit.signature base)

/-- Start a body, which takes its arguments from the operands, while the given context waits. -/
def enterBody (store : Store) (thread : Thread) (stack : List Context) (trace : List HostCall)
    (source : Module) (function : Nat) (wait : Context) : World :=
  if tooDeep store then ⟨store, thread, .done (.trap .callStackExhausted), stack, trace⟩
  else
    match thread with
    | { owner, program, boxes, slots, payloads, controls } =>
      match Interpreted.enter source function payloads controls with
      | .error trap =>
        ⟨store, ⟨owner, program, boxes, slots, payloads, controls⟩, .done (.trap trap), stack,
          trace⟩
      | .ok (frame, payloads, controls) =>
        ⟨{ store with depth := store.depth + 1 },
          ⟨owner, program, boxes, slots, payloads, controls⟩, .body frame, wait :: stack, trace⟩

def startBody (store : Store) (thread : Thread) (stack : List Context) (trace : List HostCall)
    (function : Nat) (arguments : List Value) : World :=
  match store.look thread.owner fun live => .ok live.source with
  | .error trap => ⟨store, thread, .done (.trap trap), stack, trace⟩
  | .ok source =>
    let type := (source.functionType function).getD .empty
    let base := thread.payloads.height
    let payloads := Interpreted.pushValues arguments thread.payloads
    enterBody store { thread with payloads } stack trace source function (.bodyEntry type base)

def startEngine (store : Store) (thread : Thread) (stack : List Context) (trace : List HostCall)
    (engine : Engine) (id function : Nat) (arguments : List Value) : World :=
  match engine with
  | .compiled program =>
    startUnit store { owner := id, program := some program }
      (.threadEnd thread store.depth :: stack) trace function arguments
  | .interpreted =>
    match store.look id fun live => .ok live.source.importCount with
    | .error trap => ⟨store, thread, .done (.trap trap), stack, trace⟩
    | .ok importCount =>
      if function < importCount then
        ⟨store, thread, .callImport id function arguments, stack, trace⟩
      else
        startBody store { owner := id } (.threadEnd thread store.depth :: stack) trace function
          arguments

def tooNested (store : Store) : Bool := store.limits.reentry ≤ store.reentry

def startCall (store : Store) (thread : Thread) (stack : List Context) (trace : List HostCall)
    (id function : Nat) (arguments : List Value) : World :=
  let fail (trap : Trap) : World := ⟨store, thread, .done (.trap trap), stack, trace⟩
  match store.instances[id]? with
  | none => fail (.host (.unknownInstance id))
  | some live =>
    match live.source.functionType function with
    | none => fail (.unknownFunction function)
    | some type =>
      if !kindsMatch type.params arguments then
        fail (.host (.argumentKinds function type arguments))
      else if tooNested store then fail .callStackExhausted
      else
        startEngine { store with reentry := store.reentry + 1 } thread (.reentryEnd :: stack)
          trace live.engine id function arguments

def importNames (live : Instance) (function : Nat) : String × String :=
  match live.source.imports[function]? with
  | some entry => (entry.moduleName, entry.name)
  | none => ("", "")

def startImport (store : Store) (thread : Thread) (stack : List Context) (trace : List HostCall)
    (id function : Nat) (arguments : List Value) : World :=
  let fail (trap : Trap) : World := ⟨store, thread, .done (.trap trap), stack, trace⟩
  match store.instances[id]? with
  | none => fail (.host (.unknownInstance id))
  | some live =>
    match live.imports[function]? with
    | none => fail (.unknownFunction function)
    | some (.function owner target) =>
      ⟨store, thread, .call owner target arguments, stack, trace⟩
    | some (.host host) =>
      if tooNested store then fail .callStackExhausted
      else
        let (moduleName, name) := importNames live function
        ⟨{ store with reentry := store.reentry + 1 }, thread, .host (host.run arguments),
          .hostResult host.type :: .reentryEnd :: stack, ⟨moduleName, name, arguments⟩ :: trace⟩

def startInstance (store : Store) (thread : Thread) (stack : List Context) (trace : List HostCall)
    (source : Module) (imports : Imports HostProgram) (engine : Except Error Engine) : World :=
  match engine >>= store.allocate source imports with
  | .error error => ⟨store, thread, .done (.created (.error error)), stack, trace⟩
  | .ok live =>
    let id := store.instances.size
    let store := { store with instances := store.instances.push live }
    match store.applySegments source id with
    | (.error error, store) =>
      ⟨store.truncate id, thread, .done (.created (.error error)), stack, trace⟩
    | (.ok (), store) =>
      match source.start with
      | none => ⟨store, thread, .done (.created (.ok id)), stack, trace⟩
      | some function => ⟨store, thread, .call id function [], .starting id :: stack, trace⟩

def moveUnit (store : Store) (thread : Thread) (stack : List Context) (trace : List HostCall) :
    Except Trap Compiled.Move → World
  | .error trap => ⟨store, thread, .done (.trap trap), stack, trace⟩
  | .ok (.run frame) => ⟨store, thread, .unit frame, stack, trace⟩
  | .ok (.call frame function) => enterUnit store thread stack trace function (.unit frame)
  | .ok .leave => ⟨leaveFrame store, thread, .done .returned, stack, trace⟩
  | .ok (.ask frame target arguments type) =>
    let stack := .unitValues frame type :: stack
    match target with
    | .interpreted function => startBody store thread stack trace function arguments
    | .imported function =>
      ⟨store, thread, .callImport thread.owner function arguments, stack, trace⟩
    | .foreign id function => ⟨store, thread, .call id function arguments, stack, trace⟩

def moveBody (store : Store) (thread : Thread) (stack : List Context) (trace : List HostCall) :
    Except Trap Interpreted.Move → World
  | .error trap => ⟨store, thread, .done (.trap trap), stack, trace⟩
  | .ok (.run frame) => ⟨store, thread, .body frame, stack, trace⟩
  | .ok (.call frame function) =>
    enterBody store thread stack trace frame.source function (.body frame)
  | .ok .leave => ⟨leaveFrame store, thread, .done .returned, stack, trace⟩
  | .ok (.compiled frame function arguments) =>
    if thread.program.isSome then
      startUnit store thread (.body frame :: stack) trace function arguments
    else ⟨store, thread, .call thread.owner function arguments, .body frame :: stack, trace⟩
  | .ok (.imported frame function arguments) =>
    ⟨store, thread, .callImport thread.owner function arguments, .body frame :: stack, trace⟩
  | .ok (.foreign frame id function arguments) =>
    ⟨store, thread, .call id function arguments, .body frame :: stack, trace⟩

def stepHost (store : Store) (thread : Thread) (stack : List Context) (trace : List HostCall) :
    HostProgram → World
  | .finish (.ok values) => ⟨store, thread, .done (.values values), stack, trace⟩
  | .finish (.error trap) => ⟨store, thread, .done (.trap trap), stack, trace⟩
  | .call id function arguments next =>
    ⟨store, thread, .call id function arguments, .hostCall next :: stack, trace⟩
  | .invoke id name arguments next =>
    match store.exported id name with
    | .error error => ⟨store, thread, .host (next (.error error)), stack, trace⟩
    | .ok function =>
      ⟨store, thread, .call id function arguments, .hostInvoke next :: stack, trace⟩
  | .instantiate source imports engine next =>
    startInstance store thread (.hostInstantiate next :: stack) trace source imports
      (engine.engine source)
  | .instantiateCompiled compiled imports next =>
    startInstance store thread (.hostInstantiate next :: stack) trace compiled.source imports
      ((Program.load compiled).map .compiled)
  | .changeMemory id change next =>
    if (store.instances[id]?.bind Instance.memory).isNone then
      ⟨store, thread, .host (next none), stack, trace⟩
    else
      let (result, store) := store.access id (Instance.changeMemory change)
      ⟨store, thread, .host (next (some result)), stack, trace⟩
  | .observe id next =>
    ⟨store, thread, .host (next (store.instances[id]?.map Instance.view)), stack, trace⟩
  | .interrupt next =>
    ⟨{ store with interrupt := true }, thread, .host (next ()), stack, trace⟩

/-- One step of a run. A run that is done and that nothing waits for stays as it is. -/
def step (world : World) : World :=
  match world with
  | { store, thread, control, stack, trace } =>
    match control with
    | .unit frame =>
      match thread with
      | { owner, program, boxes, slots, payloads, controls } =>
        let dispatch := (program.map Program.dispatch).getD #[]
        match Compiled.step ⟨owner, dispatch, boxes, slots, store⟩ frame with
        | (move, { owner, dispatch := _, boxes, operands, store }) =>
          moveUnit store ⟨owner, program, boxes, operands, payloads, controls⟩ stack trace
            move
    | .body frame =>
      match thread with
      | { owner, program, boxes, slots, payloads, controls } =>
        match Interpreted.step ⟨owner, payloads, controls, store⟩ frame with
        | (move, { owner, operands, controls, store }) =>
          moveBody store ⟨owner, program, boxes, slots, operands, controls⟩ stack trace move
    | .host program => stepHost store thread stack trace program
    | .call id function arguments => startCall store thread stack trace id function arguments
    | .callImport id function arguments =>
      startImport store thread stack trace id function arguments
    | .done result =>
      match stack with
      | [] => ⟨store, thread, .done result, [], trace⟩
      | context :: rest => receive store thread rest trace context result

def result? (world : World) : Option Delivery :=
  match world.control, world.stack with
  | .done result, [] => some result
  | _, _ => none

/-- Run until done. Nothing is given if that takes more steps than the fuel allows. -/
def run : Nat → World → Option World
  | 0, world => if world.result?.isSome then some world else none
  | fuel + 1, world => if world.result?.isSome then some world else run fuel (step world)

end World

/-! ## Operations -/

/-- What an operation gives: the store after it, the calls of host functions that it made, and its
outcome. -/
structure Ran (α : Type) where
  store : Store
  calls : List HostCall
  outcome : α

namespace Ran

variable {α β : Type}

def map (f : α → β) (ran : Ran α) : Ran β := ⟨ran.store, ran.calls, f ran.outcome⟩

end Ran

namespace Store

def finishCall (fuel : Nat) (world : World) : Option (Ran (Except Trap (List Value))) :=
  (world.run fuel).map fun world =>
    let outcome : Except Trap (List Value) := match world.result? with
      | some (.values values) => .ok values
      | some (.trap trap) => .error trap
      | _ => .error (.host .noActiveCall)
    ⟨world.store, world.trace.reverse, outcome⟩

def finishInstance (fuel : Nat) (world : World) : Option (Ran (Except Error Nat)) :=
  (world.run fuel).map fun world =>
    let outcome : Except Error Nat := match world.result? with
      | some (.created outcome) => outcome
      | some (.trap trap) => .error (.trap trap)
      | _ => .error (.trap (.host .noActiveCall))
    ⟨world.store, world.trace.reverse, outcome⟩

def call (store : Store) (fuel id function : Nat) (arguments : List Value) :
    Option (Ran (Except Trap (List Value))) :=
  finishCall fuel ⟨store, {}, .call id function arguments, [], []⟩

def invoke (store : Store) (fuel id : Nat) (name : String) (arguments : List Value) :
    Option (Ran (Except Error (List Value))) :=
  match store.exported id name with
  | .error error => some ⟨store, [], .error error⟩
  | .ok function => (store.call fuel id function arguments).map (·.map (·.mapError .trap))

/-- Run a function in an engine, whatever engine its instance has. Arguments are not checked. -/
def runEngine (store : Store) (fuel : Nat) (engine : Engine) (id function : Nat)
    (arguments : List Value) : Option (Ran (Except Trap (List Value))) :=
  finishCall fuel (World.startEngine store {} [] [] engine id function arguments)

def instantiate (store : Store) (fuel : Nat) (source : Module) (imports : Imports HostProgram)
    (engine : EngineOptions) : Option (Ran (Except Error Nat)) :=
  finishInstance fuel (World.startInstance store {} [] [] source imports (engine.engine source))

def instantiateCompiled (store : Store) (fuel : Nat) (compiled : CompiledModule)
    (imports : Imports HostProgram) : Option (Ran (Except Error Nat)) :=
  finishInstance fuel
    (World.startInstance store {} [] [] compiled.source imports
      ((Program.load compiled).map .compiled))

def requestInterrupt (store : Store) : Store := { store with interrupt := true }

end Store

end TwinEngine
