import TwinEngine.Stack
import TwinEngine.Store

/-!
Contract: interpretation of function bodies.

Owns: frames of running bodies and what one operator does.

Does not own: calls beyond the frame, which `World` carries out.

The frames of a thread share one stack of operands, one payload for each value, and one stack of
open blocks. A frame and an open block remember the height at which they began: a branch moves the
values that it carries down to the height of its target, and a return those that it gives back down
to that of its frame. Taking a payload from an empty stack gives zero; valid bodies never do so.
-/

namespace TwinEngine.Interpreted

/-- An open block: the height of the operands beneath it, the number of values that a branch to it
carries, and whether such a branch goes back to its start. -/
structure Control where
  height : Nat
  arity : Nat
  isLoop : Bool
deriving DecidableEq, Repr

/-- A running body. `base` is the height of the operands beneath it and `opened` that of the open
blocks, of which the first one above is the body itself. A frame that is marked `tail` returns what
its callee returns. -/
structure Frame where
  source : Module
  function : Nat
  body : Body
  position : Nat
  locals : Array UInt64
  base : Nat
  opened : Nat
  results : Nat
  tail : Bool
deriving Repr

/-- What a frame does next: run on, call a function that the interpreter runs, return, or call some
other function. A callee of the first sort takes its arguments from the operands, and a return
leaves its results there. -/
inductive Move where
  | run (frame : Frame)
  | call (frame : Frame) (function : Nat)
  | leave
  | compiled (frame : Frame) (function : Nat) (arguments : List Value)
  | imported (frame : Frame) (function : Nat) (arguments : List Value)
  | foreign (frame : Frame) (id function : Nat) (arguments : List Value)

/-- The surroundings of a frame: the instance that its code belongs to, the operands, the open
blocks and the store. -/
structure Scene where
  owner : Nat
  operands : Stack UInt64
  controls : Stack Control
  store : Store

/-! ## Operands -/

@[inline] def pop (operands : Stack UInt64) : UInt64 × Stack UInt64 := operands.pop 0

@[inline] def popWord (operands : Stack UInt64) : UInt32 × Stack UInt64 :=
  let (payload, operands) := pop operands
  (payload.toUInt32, operands)

/-- Three 32-bit numbers, the first of them taken last. -/
def popThree (operands : Stack UInt64) : (UInt32 × UInt32 × UInt32) × Stack UInt64 :=
  let (third, operands) := popWord operands
  let (second, operands) := popWord operands
  let (first, operands) := popWord operands
  ((first, second, third), operands)

def valuesOf (kinds : List ValueKind) (payloads : List UInt64) : List Value :=
  (kinds.zip payloads).map fun (kind, payload) => .ofPayload kind payload

def popArguments (type : FunctionType) (operands : Stack UInt64) : List Value × Stack UInt64 :=
  let count := type.params.length
  (valuesOf type.params (operands.last count), operands.drop count)

def pushValues (values : List Value) (operands : Stack UInt64) : Stack UInt64 :=
  operands.pushAll (values.map Value.payload)

/-- The values that an entry returns, from the operands above those that stood there before it. -/
def entryResults (type : FunctionType) (base : Nat) (operands : Stack UInt64) :
    List Value × Stack UInt64 :=
  (valuesOf type.results (operands.above base), operands.truncate base)

/-! ## Blocks -/

/-- The frame of a defined function that takes its arguments from the operands, with the operands
and the open blocks that stay beneath it. -/
def enter (source : Module) (function : Nat) (operands : Stack UInt64) (controls : Stack Control) :
    Except Trap (Frame × Stack UInt64 × Stack Control) :=
  match source.functionType function, source.body function with
  | some type, some body =>
    let count := type.params.length
    let locals := operands.last count ++ body.locals.map (·.default.payload)
    let results := type.results.length
    let operands := operands.drop count
    .ok (⟨source, function, body, 0, locals.toArray, operands.height, controls.height, results,
      false⟩, operands, controls.push ⟨operands.height, results, false⟩)
  | _, _ => .error (.unknownFunction function)

def left (frame : Frame) (operands : Stack UInt64) (controls : Stack Control) :
    Stack UInt64 × Stack Control :=
  (operands.settle frame.base frame.results, controls.truncate frame.opened)

def leave (scene : Scene) (frame : Frame) : Except Trap Move × Scene :=
  match scene with
  | { owner, operands, controls, store } =>
    let (operands, controls) := left frame operands controls
    (.ok .leave, ⟨owner, operands, controls, store⟩)

def enterBlock (scene : Scene) (frame : Frame) (type : BlockType) (isLoop : Bool) :
    Except Trap Scene :=
  match frame.source.blockType type with
  | .error error => .error (.host (.report error.message))
  | .ok type =>
    match scene with
    | { owner, operands, controls, store } =>
      let height := operands.height - type.params.length
      let arity := if isLoop then type.params.length else type.results.length
      .ok ⟨owner, operands, controls.push ⟨height, arity, isLoop⟩, store⟩

/-- Branch out of `depth` blocks. A branch back to a loop answers a pending interrupt. -/
def branch (scene : Scene) (frame : Frame) (depth target : Nat) : Except Trap Move × Scene :=
  match scene with
  | { owner, operands, controls, store } =>
    let controls := controls.drop depth
    match controls.items with
    | [] => (.error (.host (.branchDepth depth)), ⟨owner, operands, controls, store⟩)
    | control :: _ =>
      let operands := operands.settle control.height control.arity
      if control.isLoop then
        let (pending, store) := store.takeInterrupt
        (if pending then .error .interrupted
          else .ok (.run { frame with position := target + 1 }),
          ⟨owner, operands, controls, store⟩)
      else
        (.ok (.run { frame with position := target }), ⟨owner, operands, controls, store⟩)

/-- End the innermost block. A frame that has none left returns. -/
def finish (scene : Scene) (frame : Frame) : Except Trap Move × Scene :=
  match scene with
  | { owner, operands, controls, store } =>
    let controls := controls.drop 1
    if controls.height ≤ frame.opened then leave ⟨owner, operands, controls, store⟩ frame
    else (.ok (.run frame), ⟨owner, operands, controls, store⟩)

/-! ## Calls -/

@[inline] def checkInterrupt (scene : Scene) (next : Scene → Except Trap Move × Scene) :
    Except Trap Move × Scene :=
  let (pending, store) := scene.store.takeInterrupt
  if pending then (.error .interrupted, { scene with store }) else next { scene with store }

def call (scene : Scene) (frame : Frame) (function : Nat) (tail : Bool) :
    Except Trap Move × Scene :=
  checkInterrupt scene fun scene =>
    let frame := { frame with tail }
    if function < frame.source.importCount then
      match frame.source.functionType function with
      | none => (.error (.unknownFunction function), scene)
      | some type =>
        let (arguments, operands) := popArguments type scene.operands
        (.ok (.imported frame function arguments), { scene with operands })
    else
      match scene.store.look scene.owner fun live => .ok (live.engine.interprets function) with
      | .error trap => (.error trap, scene)
      | .ok true => (.ok (.call frame function), scene)
      | .ok false =>
        match frame.source.functionType function with
        | none => (.error (.unknownFunction function), scene)
        | some type =>
          let (arguments, operands) := popArguments type scene.operands
          (.ok (.compiled frame function arguments), { scene with operands })

def indirectTarget (scene : Scene) (table element : Nat) : Except Trap FuncRef := do
  let value ← scene.store.look scene.owner fun live => do
    let table ← live.table table
    if table.size ≤ element then .error .undefinedElement else table.getValue element
  match value with
  | .funcRef (some callee) => .ok callee
  | _ => .error .uninitializedElement

def callIndirect (scene : Scene) (frame : Frame) (table typeIndex : Nat) (tail : Bool) :
    Except Trap Move × Scene :=
  match frame.source.types[typeIndex]? with
  | none => (.error (.host (.typeIndex typeIndex)), scene)
  | some expected =>
    let (element, operands) := popWord scene.operands
    let scene := { scene with operands }
    match indirectTarget scene table element.toNat with
    | .error trap => (.error trap, scene)
    | .ok callee =>
      if callee.owner.toNat = scene.owner then
        if frame.source.functionType callee.index.toNat = some expected then
          call scene frame callee.index.toNat tail
        else (.error .indirectCallTypeMismatch, scene)
      else
        match scene.store.functionType callee with
        | .error trap => (.error trap, scene)
        | .ok type =>
          if type = expected then
            checkInterrupt scene fun scene =>
              let (arguments, operands) := popArguments expected scene.operands
              (.ok (.foreign { frame with tail } callee.owner.toNat callee.index.toNat
                arguments), { scene with operands })
          else (.error .indirectCallTypeMismatch, scene)

/-! ## Operators -/

/-- Read something from the instance of the code, and run on with new operands. -/
@[inline] def reading (scene : Scene) (frame : Frame)
    (read : Instance → Except Trap (Stack UInt64)) : Except Trap Move × Scene :=
  match scene.store.look scene.owner read with
  | .ok operands => (.ok (.run frame), { scene with operands })
  | .error trap => (.error trap, scene)

/-- Do something to the instance of the code, and run on with operands that depend on the result. -/
@[inline] def changing {α : Type} (scene : Scene) (frame : Frame) (effect : Effect Instance α)
    (results : α → Stack UInt64) : Except Trap Move × Scene :=
  match scene with
  | { owner, operands, controls, store } =>
    match store.access owner effect with
    | (.ok result, store) => (.ok (.run frame), ⟨owner, results result, controls, store⟩)
    | (.error trap, store) => (.error trap, ⟨owner, operands, controls, store⟩)

@[inline] def running (scene : Scene) (frame : Frame) (operands : Stack UInt64) :
    Except Trap Move × Scene :=
  (.ok (.run frame), { scene with operands })

def evaluate (operator : Numeric.Operator) (operands : Stack UInt64) :
    Except Trap (Stack UInt64) :=
  match operator.params with
  | [_] => do
      let (operand, operands) := pop operands
      return operands.push (← operator.eval operand 0)
  | _ => do
      let (right, operands) := pop operands
      let (left, operands) := pop operands
      return operands.push (← operator.eval left right)

@[inline] def setLocal (frame : Frame) (index : Nat) (payload : UInt64) : Frame :=
  match frame with
  | { source, function, body, position, locals, base, opened, results, tail } =>
    ⟨source, function, body, position, locals.setIfInBounds index payload, base, opened, results,
      tail⟩

/-- What an operator does. The frame stands after it already; `instruction` has its targets. -/
def act (scene : Scene) (frame : Frame) (instr : Instruction) : Except Trap Move × Scene :=
  match instr.operator with
  | .unreachable => (.error .unreachable, scene)
  | .nop => (.ok (.run frame), scene)
  | .enter .block type =>
    match enterBlock scene frame type false with
    | .error trap => (.error trap, scene)
    | .ok scene => (.ok (.run frame), scene)
  | .enter .loop type =>
    match enterBlock scene frame type true with
    | .error trap => (.error trap, scene)
    | .ok scene => (.ok (.run frame), scene)
  | .enter .conditional type =>
    let (condition, operands) := popWord scene.operands
    match enterBlock { scene with operands } frame type false with
    | .error trap => (.error trap, { scene with operands })
    | .ok scene =>
      let position :=
        if condition = 0 then instr.labelFalse.getD frame.position else frame.position
      (.ok (.run { frame with position }), scene)
  | .otherwise =>
    let position := instr.labelTrue.getD frame.position
    (.ok (.run { frame with position }), scene)
  | .finish => finish scene frame
  | .branch depth => branch scene frame depth (instr.labelTrue.getD frame.position)
  | .branchIf depth =>
    let (condition, operands) := popWord scene.operands
    if condition = 0 then running scene frame operands
    else
      branch { scene with operands } frame depth (instr.labelTrue.getD frame.position)
  | .branchTable targets fallback =>
    let (index, operands) := popWord scene.operands
    let (depth, entry) := match targets[index.toNat]? with
      | some depth => (depth, index.toNat)
      | none => (fallback, targets.length)
    branch { scene with operands } frame depth
      ((instr.labelTable[entry]?).getD frame.position)
  | .leave => leave scene frame
  | .call function => call scene frame function false
  | .tailCall function => call scene frame function true
  | .callIndirect table typeIndex => callIndirect scene frame table typeIndex false
  | .tailCallIndirect table typeIndex => callIndirect scene frame table typeIndex true
  | .drop => running scene frame (scene.operands.drop 1)
  | .select | .selectKind _ =>
    let (condition, operands) := popWord scene.operands
    let (second, operands) := pop operands
    let (first, operands) := pop operands
    running scene frame (operands.push (if condition = 0 then second else first))
  | .localGet index => running scene frame (scene.operands.push (frame.locals.getD index 0))
  | .localSet index =>
    let (payload, operands) := pop scene.operands
    running scene (setLocal frame index payload) operands
  | .localTee index =>
    (.ok (.run (setLocal frame index (scene.operands.top 0))), scene)
  | .globalGet index =>
    let operands := scene.operands
    reading scene frame fun live => .ok (operands.push (live.getGlobal index))
  | .globalSet index =>
    let (payload, operands) := pop scene.operands
    changing scene frame (fun live => (.ok (), live.setGlobal index payload)) fun _ => operands
  | .tableGet table =>
    let (index, operands) := popWord scene.operands
    reading scene frame fun live => do
      return operands.push (← (← live.table table).get index.toNat)
  | .tableSet table =>
    let (payload, operands) := pop scene.operands
    let (index, operands) := popWord operands
    changing scene frame (Instance.changeTable table (Table.set · index.toNat payload))
      fun _ => operands
  | .tableSize table =>
    let operands := scene.operands
    reading scene frame fun live => do
      return operands.push (UInt32.ofNat (← live.table table).size).toUInt64
  | .tableGrow table =>
    let (delta, operands) := popWord scene.operands
    let (payload, operands) := pop operands
    changing scene frame (Instance.growTable table delta.toNat payload)
      (operands.push ·.toUInt64)
  | .tableFill table =>
    let (length, operands) := popWord scene.operands
    let (payload, operands) := pop operands
    let (start, operands) := popWord operands
    changing scene frame
      (Instance.changeTable table (Table.fill · start.toNat payload length.toNat))
      fun _ => operands
  | .tableCopy targetTable sourceTable =>
    let ((target, source, length), operands) := popThree scene.operands
    changing scene frame
      (Instance.copyTable targetTable sourceTable target.toNat source.toNat length.toNat)
      fun _ => operands
  | .tableInit table segment =>
    let ((target, source, length), operands) := popThree scene.operands
    changing scene frame
      (Instance.initTable segment table target.toNat source.toNat length.toNat)
      fun _ => operands
  | .elementDrop segment =>
    let operands := scene.operands
    changing scene frame (fun live => (.ok (), live.dropElements segment)) fun _ => operands
  | .load kind offset =>
    let (address, operands) := popWord scene.operands
    reading scene frame fun live =>
      (live.readMemory (Memory.load · kind (address.toNat + offset))).map operands.push
  | .store kind offset =>
    let (payload, operands) := pop scene.operands
    let (address, operands) := popWord operands
    changing scene frame
      (Instance.changeMemory (Memory.store · kind (address.toNat + offset) payload))
      fun _ => operands
  | .memorySize =>
    let operands := scene.operands
    reading scene frame fun live =>
      live.readMemory fun memory => .ok (operands.push (UInt32.ofNat memory.pages).toUInt64)
  | .memoryGrow =>
    let (delta, operands) := popWord scene.operands
    changing scene frame (Instance.growMemory delta.toNat) (operands.push ·.toUInt64)
  | .memoryFill =>
    let ((target, value, length), operands) := popThree scene.operands
    changing scene frame
      (Instance.changeMemory (Memory.fill · target.toNat value.toUInt8 length.toNat))
      fun _ => operands
  | .memoryCopy =>
    let ((target, source, length), operands) := popThree scene.operands
    changing scene frame
      (Instance.changeMemory (Memory.copy · target.toNat source.toNat length.toNat))
      fun _ => operands
  | .memoryInit segment =>
    let ((target, source, length), operands) := popThree scene.operands
    changing scene frame
      (Instance.initMemory segment target.toNat source.toNat length.toNat) fun _ => operands
  | .dataDrop segment =>
    let operands := scene.operands
    changing scene frame (fun live => (.ok (), live.dropData segment)) fun _ => operands
  | .constant value => running scene frame (scene.operands.push value.value.payload)
  | .refNull _ => running scene frame (scene.operands.push nullPayload)
  | .refIsNull =>
    let (payload, operands) := pop scene.operands
    running scene frame (operands.push (if payload = nullPayload then 1 else 0))
  | .refFunc function =>
    let reference : FuncRef := ⟨UInt32.ofNat scene.owner, UInt32.ofNat function⟩
    running scene frame (scene.operands.push (Value.funcRef (some reference)).payload)
  | .numeric operator =>
    match evaluate operator scene.operands with
    | .ok operands => running scene frame operands
    | .error trap => (.error trap, scene)

/-- Run one operator of a frame. A body that has no more operators returns. -/
def step (scene : Scene) (frame : Frame) : Except Trap Move × Scene :=
  match frame.body.instructions[frame.position]? with
  | none => leave scene frame
  | some instr => act scene { frame with position := frame.position + 1 } instr

end TwinEngine.Interpreted
