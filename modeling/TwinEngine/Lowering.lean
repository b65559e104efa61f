import TwinEngine.Machine.Emitter
import TwinEngine.Module
import TwinEngine.Normalized

/-!
Contract: the lowering of normalized code to code units.

Owns: the layout of locals in slots, the code of every normalized instruction, the prologue of a
unit, and the stubs that pass a call on.

Before every jump to a label that is already defined, and before every call, the unit polls the
interrupt flag.
-/

namespace TwinEngine

namespace Lowering

open Machine (Emitter Action Width Condition Convention CodeUnit Callee)

/-- What lowering knows about a function: the kind and the first slot of every local. -/
structure Context where
  source : Module
  signature : FunctionType
  locals : Array (ValueKind × UInt16)
  frameSlots : Nat

def layoutFrom (function : Nat) :
    List ValueKind → Nat → Array (ValueKind × UInt16) →
      Except Error (Array (ValueKind × UInt16) × Nat)
  | [], next, done =>
    if next > 65535 then .error (.unsupported (.localSlots function next)) else .ok (done, next)
  | kind :: kinds, next, done =>
    if next > 65535 then .error (.unsupported (.localSlots function next))
    else layoutFrom function kinds (next + kind.slots) (done.push (kind, UInt16.ofNat next))

def Context.of (source : Module) (function : Nat) : Except Error Context :=
  match source.functionType function with
  | none => .error (.internal (.noType function))
  | some signature =>
    match source.body function with
    | none => .error (.internal (.noBody function))
    | some body => do
        let (locals, slots) ← layoutFrom function (signature.params ++ body.locals) 0 #[]
        return ⟨source, signature, locals, slots⟩

def widthOf (kind : ValueKind) : Width :=
  if kind.slots = 1 then .one else .two

def Context.local (context : Context) (index : Nat) : Except Error (ValueKind × UInt16) :=
  match context.locals[index]? with
  | some entry => .ok entry
  | none => .error (.internal (.localOutOfRange index))

def Context.globalKind (context : Context) (index : Nat) : Except Error ValueKind :=
  match context.source.globals[index]? with
  | some global => .ok global.kind
  | none => .error (.internal (.globalOutOfRange index))

def localGet (context : Context) (emitter : Emitter) (index : Nat) : Except Error Emitter := do
  let (kind, slot) ← context.local index
  return emitter.emit (.load (widthOf kind) slot)

def localSet (context : Context) (emitter : Emitter) (index : Nat) : Except Error Emitter := do
  let (kind, slot) ← context.local index
  return emitter.emit (.store (widthOf kind) slot)

/-- Store locals from the last of a number of them down to the first. -/
def storeParams (context : Context) : Nat → Emitter → Except Error Emitter
  | 0, emitter => .ok emitter
  | count + 1, emitter => do
      let emitter ← localSet context emitter count
      storeParams context count emitter

/-- Give declared references their null. Numbers are zero in a fresh frame. -/
def defaultLocals (locals : List (ValueKind × UInt16)) (emitter : Emitter) : Emitter :=
  locals.foldl
    (fun emitter (kind, slot) =>
      if kind.isRef then (emitter.emit (.const64 nullPayload)).emit (.store .two slot)
      else emitter)
    emitter

/-- Spread boxed arguments over the locals, and give references their default. -/
def prologue (context : Context) (emitter : Emitter) : Except Error Emitter := do
  let params := context.signature.params.length
  let emitter ←
    match Convention.of context.signature with
    | .slots => pure emitter
    | .boxed =>
      let (signature, emitter) ← emitter.signature context.signature
      let emitter := (emitter.emit (.load .one 0)).emit (.unbox .params signature)
      storeParams context params emitter
  return defaultLocals (context.locals.toList.drop params) emitter

/-- Append a jump to a named label, after a poll when it goes backwards. -/
def jump (emitter : Emitter) (condition : Condition) (name : Nat) : Emitter :=
  let (label, emitter) := emitter.labelFor name
  let emitter := if emitter.isDefined label then emitter.emit .checkInterrupt else emitter
  emitter.jump condition label

/-- Append a switch over named labels, after a poll when one of them goes backwards. -/
def switch (emitter : Emitter) (names : List Nat) : Except Error Emitter :=
  let (labels, emitter) := emitter.labelsFor names
  let emitter := if labels.any emitter.isDefined then emitter.emit .checkInterrupt else emitter
  emitter.switch labels

/-- Drop values beneath others; nothing is emitted when there are none. -/
def dropKeep (emitter : Emitter) (drop keep : List ValueKind) : Except Error Emitter :=
  let dropSlots := ValueKind.slotCount drop
  let keepSlots := ValueKind.slotCount keep
  if dropSlots = 0 then .ok emitter
  else if dropSlots > 65535 || keepSlots > 65535 then .error (.unsupported .wideUnwind)
  else .ok (emitter.emit (.dropKeep (UInt16.ofNat dropSlots) (UInt16.ofNat keepSlots)))

/-- Return the function's results, in a box when there are two or more. -/
def leave (context : Context) (emitter : Emitter) : Except Error Emitter := do
  let emitter ←
    if context.signature.results.length > 1 then
      let (signature, emitter) ← emitter.signature context.signature
      pure (emitter.emit (.box .results signature))
    else pure emitter
  let slots := Machine.returnSlots context.signature
  if slots > 65535 then throw (.unsupported .resultSlots)
  return emitter.emit (.leave (UInt16.ofNat slots))

def unboxResults (emitter : Emitter) (type : FunctionType) (signature : UInt16) : Emitter :=
  if type.results.length > 1 then emitter.emit (.unbox .results signature) else emitter

def call (context : Context) (emitter : Emitter) (function : Nat) : Except Error Emitter :=
  match context.source.functionType function with
  | none => .error (.internal (.unknownCallee function))
  | some type => do
      let (signature, emitter) ← emitter.signature type
      let emitter :=
        match Convention.of type with
        | .slots => emitter
        | .boxed => emitter.emit (.box .params signature)
      let emitter := emitter.emit .checkInterrupt
      let emitter := emitter.emit (.call .unit (UInt32.ofNat function) signature)
      return unboxResults emitter type signature

/-- A call through a table. The element index lies above the arguments, so it is put aside while
these are boxed. -/
def callIndirect (context : Context) (emitter : Emitter) (typeIndex table : Nat) :
    Except Error Emitter :=
  match context.source.types[typeIndex]? with
  | none => .error (.internal (.typeIndexOutOfRange typeIndex))
  | some type => do
      let (signature, emitter) ← emitter.signature type
      let emitter ←
        match Convention.of type with
        | .slots => pure emitter
        | .boxed =>
          let (slot, emitter) ← emitter.scratchSlot
          let emitter := emitter.emit (.store .one slot)
          let emitter := emitter.emit (.box .params signature)
          pure (emitter.emit (.load .one slot))
      let emitter := emitter.emit .checkInterrupt
      let emitter := emitter.emit
        (.callIndirect (UInt32.ofNat typeIndex) (UInt32.ofNat table) signature)
      return unboxResults emitter type signature

/-- Static offsets above this reach no memory. -/
def maxStaticOffset : Nat := 2 ^ 31 - 1

def load (emitter : Emitter) (kind : LoadKind) (offset : Nat) : Emitter :=
  if offset ≤ maxStaticOffset then emitter.emit (.memLoad kind (UInt32.ofNat offset))
  else (emitter.emit (.pop .one)).emit (.trap .memoryOutOfBounds)

def store (emitter : Emitter) (kind : StoreKind) (offset : Nat) : Emitter :=
  if offset ≤ maxStaticOffset then emitter.emit (.memStore kind (UInt32.ofNat offset))
  else
    let emitter := emitter.emit (.pop (widthOf kind.operand))
    (emitter.emit (.pop .one)).emit (.trap .memoryOutOfBounds)

def constant (emitter : Emitter) : Constant → Emitter
  | .i32 bits | .f32 bits => emitter.emit (.const32 bits)
  | .i64 bits | .f64 bits => emitter.emit (.const64 bits)

def operator (context : Context) (emitter : Emitter) : Operator → Except Error Emitter
  | .localGet index => localGet context emitter index
  | .localSet index => localSet context emitter index
  | .globalGet index => do
      let kind ← context.globalKind index
      return emitter.emit (.globalGet (widthOf kind) (UInt32.ofNat index))
  | .globalSet index => do
      let kind ← context.globalKind index
      return emitter.emit (.globalSet (widthOf kind) (UInt32.ofNat index))
  | .load kind offset => .ok (load emitter kind offset)
  | .store kind offset => .ok (store emitter kind offset)
  | .memorySize => .ok (emitter.emit .memorySize)
  | .memoryGrow => .ok (emitter.emit .memoryGrow)
  | .memoryFill => .ok (emitter.emit .memoryFill)
  | .memoryCopy => .ok (emitter.emit .memoryCopy)
  | .memoryInit segment => .ok (emitter.emit (.memoryInit (UInt32.ofNat segment)))
  | .dataDrop segment => .ok (emitter.emit (.dataDrop (UInt32.ofNat segment)))
  | .tableGet table => .ok (emitter.emit (.tableGet (UInt32.ofNat table)))
  | .tableSet table => .ok (emitter.emit (.tableSet (UInt32.ofNat table)))
  | .tableSize table => .ok (emitter.emit (.tableSize (UInt32.ofNat table)))
  | .tableGrow table => .ok (emitter.emit (.tableGrow (UInt32.ofNat table)))
  | .tableFill table => .ok (emitter.emit (.tableFill (UInt32.ofNat table)))
  | .tableCopy target source =>
    .ok (emitter.emit (.tableCopy (UInt32.ofNat target) (UInt32.ofNat source)))
  | .tableInit table segment =>
    .ok (emitter.emit (.tableInit (UInt32.ofNat segment) (UInt32.ofNat table)))
  | .elementDrop segment => .ok (emitter.emit (.elementDrop (UInt32.ofNat segment)))
  | .constant value => .ok (constant emitter value)
  | .refNull _ => .ok (emitter.emit (.const64 nullPayload))
  | .refIsNull => .ok (emitter.emit .refIsNull)
  | .refFunc function => .ok (emitter.emit (.refFunc (UInt32.ofNat function)))
  | .numeric numeric => .ok (emitter.emit (.numeric numeric))
  | other => .error (.unsupportedOpcode (some other))

def instruction (context : Context) (emitter : Emitter) : Normalized → Except Error Emitter
  | .label name =>
    let (label, emitter) := emitter.labelFor name
    .ok (emitter.define label)
  | .goto target => .ok (jump emitter .always target)
  | .ifZero target => .ok (jump emitter .zero target)
  | .ifNonzero target => .ok (jump emitter .nonzero target)
  | .switch targets => switch emitter targets
  | .dropKeep drop keep => dropKeep emitter drop keep
  | .leave _ => leave context emitter
  | .trap => .ok (emitter.emit (.trap .unreachable))
  | .drop kind => .ok (emitter.emit (.pop (widthOf kind)))
  | .select kind => .ok (emitter.emit (.select (widthOf kind)))
  | .localTee index kind => localSet context (emitter.emit (.dup (widthOf kind))) index
  | .call function => call context emitter function
  | .callIndirect typeIndex table => callIndirect context emitter typeIndex table
  | .operator op => operator context emitter op

def instructions (context : Context) : List Normalized → Emitter → Except Error Emitter
  | [], emitter => .ok emitter
  | first :: rest, emitter => do
      let emitter ← instruction context emitter first
      instructions context rest emitter

/-- Lower the normalized code of a function to a checked unit of at most `limit` bytes. -/
def function (source : Module) (index : Nat) (code : List Normalized) (limit : Nat) :
    Except Error CodeUnit := do
  let context ← Context.of source index
  let emitter ← prologue context (.new index context.frameSlots)
  let emitter ← instructions context code emitter
  emitter.finish context.signature limit

/-- Load `count` slots from a slot on, two at a time. -/
def forwardSlots : Nat → Nat → Emitter → Emitter
  | 0, _, emitter => emitter
  | 1, slot, emitter => emitter.emit (.load .one (UInt16.ofNat slot))
  | count + 2, slot, emitter =>
    forwardSlots count (slot + 2) (emitter.emit (.load .two (UInt16.ofNat slot)))

/-- A unit that passes its arguments on and returns what comes back. -/
def delegation (function : Nat) (type : FunctionType) (callee : Callee) (limit : Nat) :
    Except Error CodeUnit := do
  let slots := Machine.argSlots type
  let (signature, emitter) ← (Emitter.new function slots).signature type
  let emitter := forwardSlots slots 0 emitter
  let emitter := emitter.emit (.call callee (UInt32.ofNat function) signature)
  let results := Machine.returnSlots type
  if results > 65535 then throw (.unsupported .resultSlots)
  (emitter.emit (.leave (UInt16.ofNat results))).finish type limit

end Lowering

end TwinEngine
