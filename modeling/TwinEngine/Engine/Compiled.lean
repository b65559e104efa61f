import TwinEngine.Machine.Boxes
import TwinEngine.Machine.Slots
import TwinEngine.Stack
import TwinEngine.Store

/-!
Contract: execution of code units.

Owns: frames of running units and what one instruction does.

Does not own: calls beyond the frame, which `World` carries out.

The frames of a thread share one stack of operand slots. A frame remembers the height at which it
began, and a return moves its results down to it. Taking a slot from an empty stack gives zero;
verified units never do so.
-/

namespace TwinEngine.Compiled

open Machine

/-- A running unit: the next instruction, the height of the operands beneath its arguments, and its
local slots. -/
structure Frame where
  unit : LoadedUnit
  position : Nat
  base : Nat
  locals : Array UInt32
deriving Repr

/-- A function outside the running unit whose arguments travel as values. -/
inductive Target where
  | interpreted (function : Nat)
  | imported (function : Nat)
  | foreign (id function : Nat)
deriving DecidableEq, Repr

/-- What a frame does next: run on, call a unit, return, or ask for a call with values. A unit takes
its arguments from the operands, and a return leaves its results there. -/
inductive Move where
  | run (frame : Frame)
  | call (frame : Frame) (function : Nat)
  | leave
  | ask (frame : Frame) (target : Target) (arguments : List Value) (type : FunctionType)

/-- The surroundings of a frame: the instance that its code belongs to, the dispatch tables of that
code, the boxes, the operands and the store. -/
structure Scene where
  owner : Nat
  dispatch : Array (List Nat)
  boxes : Boxes
  operands : Stack UInt32
  store : Store

/-! ## Operands -/

@[inline] def pop (operands : Stack UInt32) : UInt32 × Stack UInt32 := operands.pop 0

def popWide (operands : Stack UInt32) : UInt64 × Stack UInt32 :=
  let (high, operands) := pop operands
  let (low, operands) := pop operands
  (joinSlots low high, operands)

def pushWide (payload : UInt64) (operands : Stack UInt32) : Stack UInt32 :=
  (operands.push (lowSlot payload)).push (highSlot payload)

def popKind (kind : ValueKind) (operands : Stack UInt32) : UInt64 × Stack UInt32 :=
  if kind.slots = 1 then
    let (slot, operands) := pop operands
    (slot.toUInt64, operands)
  else popWide operands

def pushKind (kind : ValueKind) (payload : UInt64) (operands : Stack UInt32) : Stack UInt32 :=
  if kind.slots = 1 then operands.push (lowSlot payload) else pushWide payload operands

/-- Three slots, the first of them taken last. -/
def popThree (operands : Stack UInt32) : (UInt32 × UInt32 × UInt32) × Stack UInt32 :=
  let (third, operands) := pop operands
  let (second, operands) := pop operands
  let (first, operands) := pop operands
  ((first, second, third), operands)

def popArguments (boxes : Boxes) (type : FunctionType) (operands : Stack UInt32) :
    Except Trap (List Value × Boxes × Stack UInt32) :=
  match Convention.of type with
  | .boxed =>
    let (handle, operands) := pop operands
    match boxes.take handle with
    | some (slots, boxes) => .ok (decodeValues type.params slots, boxes, operands)
    | none => .error (.host (.invalidBox handle.toNat))
  | .slots =>
    .ok (decodeValues type.params (operands.last type.paramSlots), boxes,
      operands.drop type.paramSlots)

def pushArguments (boxes : Boxes) (type : FunctionType) (values : List Value)
    (operands : Stack UInt32) : Boxes × Stack UInt32 :=
  let slots := encodeValues values
  match Convention.of type with
  | .boxed =>
    let (handle, boxes) := boxes.put slots
    (boxes, operands.push handle)
  | .slots => (boxes, operands.pushAll slots)

def pushResults (boxes : Boxes) (type : FunctionType) (values : List Value)
    (operands : Stack UInt32) : Boxes × Stack UInt32 :=
  let slots := encodeValues values
  if 1 < type.results.length then
    let (handle, boxes) := boxes.put slots
    (boxes, operands.push handle)
  else (boxes, operands.pushAll slots)

def signatureOf (unit : LoadedUnit) (signature : UInt16) : Except Trap FunctionType :=
  match unit.signatureAt signature with
  | .ok type => .ok type
  | .error fault => .error (.host (.report (Error.verification unit.function fault).message))

/-- The frame of a unit that takes its arguments from operands, and the operands that stay. -/
def enter (unit : LoadedUnit) (operands : Stack UInt32) : Frame × Stack UInt32 :=
  let count := argSlots unit.signature
  let arguments := operands.last count
  let locals := arguments ++ List.replicate (max unit.localSlots count - arguments.length) 0
  let operands := operands.drop count
  (⟨unit, 0, operands.height, locals.toArray⟩, operands)

/-- The values that an entry returns, from the operands above those that stood there before it, or
from the box that is last among them. -/
def entryResults (boxes : Boxes) (type : FunctionType) (base : Nat) (operands : Stack UInt32) :
    Except Trap (List Value × Boxes × Stack UInt32) :=
  if 1 < type.results.length then
    let (handle, operands) := pop operands
    match boxes.take handle with
    | some (slots, boxes) => .ok (decodeValues type.results slots, boxes, operands)
    | none => .error (.host (.invalidBox handle.toNat))
  else .ok (decodeValues type.results (operands.above base), boxes, operands.truncate base)

/-! ## Instructions -/

/-- The function that an indirect call reaches: the element must exist, hold a function, and be of
the type that the call expects. -/
def indirectTarget (scene : Scene) (typeIndex table element : Nat) (type : FunctionType) :
    Except Trap FuncRef := do
  let payload ← scene.store.look scene.owner fun live => do
    let table ← live.table table
    if table.size ≤ element then .error .undefinedElement else table.get element
  if payload = nullPayload then .error .uninitializedElement
  let callee := FuncRef.ofPayload payload
  let sameType ←
    if callee.owner.toNat = scene.owner then
      .ok ((scene.dispatch.getD typeIndex []).contains callee.index.toNat)
    else (scene.store.functionType callee).map (· == type)
  if sameType then .ok callee else .error .indirectCallTypeMismatch

/-- Read something from the instance of the code, and run on with new operands. -/
@[inline] def reading (scene : Scene) (frame : Frame)
    (read : Instance → Except Trap (Stack UInt32)) : Except Trap Move × Scene :=
  match scene.store.look scene.owner read with
  | .ok operands => (.ok (.run frame), { scene with operands })
  | .error trap => (.error trap, scene)

/-- Do something to the instance of the code, and run on with operands that depend on the result. -/
@[inline] def changing {α : Type} (scene : Scene) (frame : Frame) (effect : Effect Instance α)
    (results : α → Stack UInt32) : Except Trap Move × Scene :=
  match scene with
  | { owner, dispatch, boxes, operands, store } =>
    match store.access owner effect with
    | (.ok result, store) =>
      (.ok (.run frame), ⟨owner, dispatch, boxes, results result, store⟩)
    | (.error trap, store) => (.error trap, ⟨owner, dispatch, boxes, operands, store⟩)

@[inline] def running (scene : Scene) (frame : Frame) (operands : Stack UInt32) :
    Except Trap Move × Scene :=
  (.ok (.run frame), { scene with operands })

def evaluate (operator : Numeric.Operator) (operands : Stack UInt32) :
    Except Trap (Stack UInt32) :=
  match operator.params with
  | [kind] => do
      let (operand, operands) := popKind kind operands
      return pushKind operator.result (← operator.eval operand 0) operands
  | [leftKind, rightKind] => do
      let (right, operands) := popKind rightKind operands
      let (left, operands) := popKind leftKind operands
      return pushKind operator.result (← operator.eval left right) operands
  | _ => do return pushKind operator.result (← operator.eval 0 0) operands

def callDirect (scene : Scene) (frame : Frame) (callee : Callee) (function : Nat)
    (signature : UInt16) : Except Trap Move × Scene :=
  match callee with
  | .unit => (.ok (.call frame function), scene)
  | .imported => ask (.imported function)
  | .interpreted => ask (.interpreted function)
where
  ask (target : Target) : Except Trap Move × Scene :=
    match signatureOf frame.unit signature with
    | .error trap => (.error trap, scene)
    | .ok type =>
      match popArguments scene.boxes type scene.operands with
      | .error trap => (.error trap, scene)
      | .ok (arguments, boxes, operands) =>
        (.ok (.ask frame target arguments type), { scene with boxes, operands })

def callIndirect (scene : Scene) (frame : Frame) (typeIndex table : Nat) (signature : UInt16) :
    Except Trap Move × Scene :=
  match signatureOf frame.unit signature with
  | .error trap => (.error trap, scene)
  | .ok type =>
    let (element, operands) := pop scene.operands
    match indirectTarget scene typeIndex table element.toNat type with
    | .error trap => (.error trap, scene)
    | .ok callee =>
      if callee.owner.toNat = scene.owner then
        (.ok (.call frame callee.index.toNat), { scene with operands })
      else
        match popArguments scene.boxes type operands with
        | .error trap => (.error trap, scene)
        | .ok (arguments, boxes, operands) =>
          (.ok (.ask frame (.foreign callee.owner.toNat callee.index.toNat) arguments type),
            { scene with boxes, operands })

def boxTop (scene : Scene) (frame : Frame) (parcel : Parcel) (signature : UInt16) :
    Except Trap Move × Scene :=
  match signatureOf frame.unit signature with
  | .error trap => (.error trap, scene)
  | .ok type =>
    let count := LoadedUnit.parcelSlots type parcel
    let (handle, boxes) := scene.boxes.put (scene.operands.last count)
    (.ok (.run frame), { scene with boxes, operands := (scene.operands.drop count).push handle })

def unboxTop (scene : Scene) (frame : Frame) : Except Trap Move × Scene :=
  let (handle, operands) := pop scene.operands
  match scene.boxes.take handle with
  | none => (.error (.host (.invalidBox handle.toNat)), scene)
  | some (slots, boxes) =>
    (.ok (.run frame), { scene with boxes, operands := operands.pushAll slots })

def storeLocal (scene : Scene) (frame : Frame) (width : Width) (slot : Nat) :
    Except Trap Move × Scene :=
  match frame with
  | { unit, position, base, locals } =>
    match width with
    | .one =>
      let (value, operands) := pop scene.operands
      running scene ⟨unit, position, base, locals.setIfInBounds slot value⟩ operands
    | .two =>
      let (high, operands) := pop scene.operands
      let (low, operands) := pop operands
      running scene ⟨unit, position, base,
        (locals.setIfInBounds slot low).setIfInBounds (slot + 1) high⟩ operands

def leave (scene : Scene) (frame : Frame) (slots : Nat) : Except Trap Move × Scene :=
  (.ok .leave, { scene with operands := scene.operands.settle frame.base slots })

/-- What an instruction without jump operands does. The frame stands after it already. -/
def act (scene : Scene) (frame : Frame) : Action → Except Trap Move × Scene
  | .trap .unreachable => (.error .unreachable, scene)
  | .trap .memoryOutOfBounds => (.error .memoryOutOfBounds, scene)
  | .checkInterrupt =>
    let (pending, store) := scene.store.takeInterrupt
    (if pending then .error .interrupted else .ok (.run frame), { scene with store })
  | .const32 bits => running scene frame (scene.operands.push bits)
  | .const64 bits => running scene frame (pushWide bits scene.operands)
  | .load .one slot =>
    running scene frame (scene.operands.push (frame.locals.getD slot.toNat 0))
  | .load .two slot =>
    running scene frame ((scene.operands.push (frame.locals.getD slot.toNat 0)).push
      (frame.locals.getD (slot.toNat + 1) 0))
  | .store width slot => storeLocal scene frame width slot.toNat
  | .pop width => running scene frame (scene.operands.drop width.slots)
  | .dup width =>
    running scene frame (scene.operands.pushAll (scene.operands.last width.slots))
  | .dropKeep dropped kept =>
    running scene frame ((scene.operands.drop (kept.toNat + dropped.toNat)).pushAll
      (scene.operands.last kept.toNat))
  | .select .one =>
    let ((first, second, condition), operands) := popThree scene.operands
    running scene frame (operands.push (if condition = 0 then second else first))
  | .select .two =>
    let (condition, operands) := pop scene.operands
    let (second, operands) := popWide operands
    let (first, operands) := popWide operands
    running scene frame (pushWide (if condition = 0 then second else first) operands)
  | .leave slots => leave scene frame slots.toNat
  | .numeric operator =>
    match evaluate operator scene.operands with
    | .ok operands => running scene frame operands
    | .error trap => (.error trap, scene)
  | .memLoad kind offset =>
    let (address, operands) := pop scene.operands
    reading scene frame fun live =>
      (live.readMemory (Memory.load · kind (address.toNat + offset.toNat))).map
        (pushKind kind.result · operands)
  | .memStore kind offset =>
    let (payload, operands) := popKind kind.operand scene.operands
    let (address, operands) := pop operands
    changing scene frame
      (Instance.changeMemory (Memory.store · kind (address.toNat + offset.toNat) payload))
      fun _ => operands
  | .memorySize =>
    let operands := scene.operands
    reading scene frame fun live =>
      live.readMemory fun memory => .ok (operands.push (UInt32.ofNat memory.pages))
  | .memoryGrow =>
    let (delta, operands) := pop scene.operands
    changing scene frame (Instance.growMemory delta.toNat) operands.push
  | .memoryFill =>
    let ((target, value, length), operands) := popThree scene.operands
    changing scene frame
      (Instance.changeMemory (Memory.fill · target.toNat value.toUInt8 length.toNat))
      fun _ => operands
  | .memoryCopy =>
    let ((target, source, length), operands) := popThree scene.operands
    changing scene frame
      (Instance.changeMemory (Memory.copy · target.toNat source.toNat length.toNat))
      fun _ => operands
  | .memoryInit segment =>
    let ((target, source, length), operands) := popThree scene.operands
    changing scene frame
      (Instance.initMemory segment.toNat target.toNat source.toNat length.toNat)
      fun _ => operands
  | .dataDrop segment =>
    let operands := scene.operands
    changing scene frame (fun live => (.ok (), live.dropData segment.toNat)) fun _ => operands
  | .globalGet .one index =>
    let operands := scene.operands
    reading scene frame fun live => .ok (operands.push (lowSlot (live.getGlobal index.toNat)))
  | .globalGet .two index =>
    let operands := scene.operands
    reading scene frame fun live => .ok (pushWide (live.getGlobal index.toNat) operands)
  | .globalSet .one index =>
    let (slot, operands) := pop scene.operands
    changing scene frame (fun live => (.ok (), live.setGlobal index.toNat slot.toUInt64))
      fun _ => operands
  | .globalSet .two index =>
    let (payload, operands) := popWide scene.operands
    changing scene frame (fun live => (.ok (), live.setGlobal index.toNat payload))
      fun _ => operands
  | .tableGet table =>
    let (index, operands) := pop scene.operands
    reading scene frame fun live => do
      return pushWide (← (← live.table table.toNat).get index.toNat) operands
  | .tableSet table =>
    let (payload, operands) := popWide scene.operands
    let (index, operands) := pop operands
    changing scene frame
      (Instance.changeTable table.toNat (Table.set · index.toNat payload)) fun _ => operands
  | .tableSize table =>
    let operands := scene.operands
    reading scene frame fun live => do
      return operands.push (UInt32.ofNat (← live.table table.toNat).size)
  | .tableGrow table =>
    let (delta, operands) := pop scene.operands
    let (payload, operands) := popWide operands
    changing scene frame (Instance.growTable table.toNat delta.toNat payload) operands.push
  | .tableFill table =>
    let (length, operands) := pop scene.operands
    let (payload, operands) := popWide operands
    let (start, operands) := pop operands
    changing scene frame
      (Instance.changeTable table.toNat (Table.fill · start.toNat payload length.toNat))
      fun _ => operands
  | .tableCopy targetTable sourceTable =>
    let ((target, source, length), operands) := popThree scene.operands
    changing scene frame
      (Instance.copyTable targetTable.toNat sourceTable.toNat target.toNat source.toNat
        length.toNat) fun _ => operands
  | .tableInit segment table =>
    let ((target, source, length), operands) := popThree scene.operands
    changing scene frame
      (Instance.initTable segment.toNat table.toNat target.toNat source.toNat length.toNat)
      fun _ => operands
  | .elementDrop segment =>
    let operands := scene.operands
    changing scene frame (fun live => (.ok (), live.dropElements segment.toNat))
      fun _ => operands
  | .refFunc function =>
    let reference : FuncRef := ⟨UInt32.ofNat scene.owner, function⟩
    running scene frame (pushWide (Value.funcRef (some reference)).payload scene.operands)
  | .refIsNull =>
    let (payload, operands) := popWide scene.operands
    running scene frame (operands.push (if payload = nullPayload then 1 else 0))
  | .call callee function signature => callDirect scene frame callee function.toNat signature
  | .callIndirect typeIndex table signature =>
    callIndirect scene frame typeIndex.toNat table.toNat signature
  | .box parcel signature => boxTop scene frame parcel signature
  | .unbox .. => unboxTop scene frame

/-- The target of a switch for an index; an index beyond the targets takes the last of them. -/
def switchTarget (targets : List Nat) (index : Nat) : Nat :=
  match targets[index]? with
  | some target => target
  | none => targets.getLastD 0

def step (scene : Scene) (frame : Frame) : Except Trap Move × Scene :=
  match frame with
  | { unit, position, base, locals } =>
    match unit.code[position]? with
    | none => (.error (.host (.pastEnd unit.function)), scene)
    | some (.plain action) => act scene ⟨unit, position + 1, base, locals⟩ action
    | some (.jump .always target) => (.ok (.run ⟨unit, target, base, locals⟩), scene)
    | some (.jump .zero target) =>
      let (condition, operands) := pop scene.operands
      let position := if condition = 0 then target else position + 1
      running scene ⟨unit, position, base, locals⟩ operands
    | some (.jump .nonzero target) =>
      let (condition, operands) := pop scene.operands
      let position := if condition = 0 then position + 1 else target
      running scene ⟨unit, position, base, locals⟩ operands
    | some (.switch targets) =>
      let (index, operands) := pop scene.operands
      running scene ⟨unit, switchTarget targets index.toNat, base, locals⟩ operands

end TwinEngine.Compiled
