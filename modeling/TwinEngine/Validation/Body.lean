import TwinEngine.Binary.Operator
import TwinEngine.Validation.TypeSpace

/-!
Contract: typing of operator sequences.

Owns: what an operator may refer to, the state of a check, and the step that one operator makes.

Does not own: the rules of a module outside its code (`Validation.Module`).

Each open block keeps the operands that were pushed inside it, so an operator can never reach below
the block that it stands in. Code that cannot be reached may take any operand from an empty block.
-/

namespace TwinEngine.Validation

open TwinEngine.Binary

/-- What is known of an operand: nothing, that it is a reference, or its type. -/
inductive Operand where
  | unknown
  | someRef
  | known (type : ValType)
deriving DecidableEq, Repr

inductive FrameForm where
  | body
  | block
  | loop
  | conditional
  | otherwise
deriving DecidableEq, Repr

/-- An open block. The last operand is first. `assigned` holds the locals that had been given a
value when it was entered. -/
structure Frame where
  form : FrameForm
  params : List ValType
  results : List ValType
  operands : List Operand
  unreachable : Bool
  assigned : List Nat
deriving DecidableEq, Repr

/-- What the operators of a module may refer to. `referable` holds the functions that a reference
may name, or is absent if there is no restriction. -/
structure Context where
  space : TypeSpace := {}
  functions : Array Nat := #[]
  tables : Array TableNote := #[]
  memories : Array MemoryNote := #[]
  globals : Array GlobalNote := #[]
  tags : Array Nat := #[]
  elements : Array RefType := #[]
  dataCount : Option Nat := none
  referable : Option (List Nat) := none
  locals : Array ValType := #[]
  paramCount : Nat := 0
deriving Repr

/-- The state of a check: the open blocks, innermost first, and the locals that have been given a
value. No block is open once the body has ended. -/
structure State where
  frames : List Frame
  assigned : List Nat
deriving DecidableEq, Repr

def typeOfKind : ValueKind → ValType
  | .i32 => .i32
  | .i64 => .i64
  | .f32 => .f32
  | .f64 => .f64
  | .funcRef => .ref (.nullableOf .func)
  | .externRef => .ref (.nullableOf .external)

namespace Frame

def labelTypes (frame : Frame) : List ValType :=
  if frame.form = .loop then frame.params else frame.results

def markUnreachable (frame : Frame) : Frame :=
  { frame with operands := [], unreachable := true }

def popAny (frame : Frame) : Option (Operand × Frame) :=
  match frame.operands with
  | operand :: rest => some (operand, { frame with operands := rest })
  | [] => if frame.unreachable then some (.unknown, frame) else none

def fits (space : TypeSpace) (expected : ValType) : Operand → Bool
  | .unknown => true
  | .someRef =>
    match expected with
    | .ref _ => true
    | _ => false
  | .known type => space.within type expected

def pop (space : TypeSpace) (expected : ValType) (frame : Frame) : Option Frame :=
  (frame.popAny).bind fun (operand, frame) =>
    if fits space expected operand then some frame else none

def popRef (frame : Frame) : Option (Operand × Frame) :=
  (frame.popAny).bind fun (operand, frame) =>
    match operand with
    | .unknown | .someRef => some (.someRef, frame)
    | .known (.ref type) => some (.known (.ref type), frame)
    | .known _ => none

/-- Take the last operand, a reference to a basic heap type or to its shared form. -/
def popBasic (space : TypeSpace) (kind : BasicHeap) (frame : Frame) : Option (Operand × Frame) :=
  (frame.popRef).bind fun (operand, frame) =>
    if fits space (.ref ⟨true, .basic kind⟩) operand ||
        fits space (.ref ⟨true, .shared kind⟩) operand then
      some (operand, frame)
    else none

/-- Take operands of the given types, the last one first. -/
def popReversed (space : TypeSpace) : List ValType → Frame → Option Frame
  | [], frame => some frame
  | type :: rest, frame => (frame.pop space type).bind (popReversed space rest)

def popAll (space : TypeSpace) (types : List ValType) (frame : Frame) : Option Frame :=
  popReversed space types.reverse frame

def pushOperand (operand : Operand) (frame : Frame) : Frame :=
  { frame with operands := operand :: frame.operands }

def push (types : List ValType) (frame : Frame) : Frame :=
  { frame with
    operands := types.foldl (fun operands type => .known type :: operands) frame.operands }

def apply (space : TypeSpace) (params results : List ValType) (frame : Frame) : Option Frame :=
  (frame.popAll space params).map (push results)

/-- Take the same type several times. Once nothing but unreachable code supplies it, the rest are
there too. -/
def popMany (space : TypeSpace) (type : ValType) : Nat → Frame → Option Frame
  | 0, frame => some frame
  | count + 1, frame =>
    if frame.operands.isEmpty then if frame.unreachable then some frame else none
    else (frame.pop space type).bind (popMany space type count)

/-- The block ends here with exactly its results. -/
def closes (space : TypeSpace) (frame : Frame) : Bool :=
  match frame.popAll space frame.results with
  | some frame => frame.operands.isEmpty
  | none => false

def enter (form : FrameForm) (signature : Signature) (assigned : List Nat) : Frame :=
  push signature.params ⟨form, signature.params, signature.results, [], false, assigned⟩

end Frame

namespace Context

def functionSignature (context : Context) (function : Nat) : Option Signature :=
  (context.functions[function]?).bind context.space.signature

def tagParams (context : Context) (tag : Nat) : Option (List ValType) :=
  ((context.tags[tag]?).bind context.space.signature).map Signature.params

def blockSignature (context : Context) : BlockNote → Option Signature
  | .empty => some ⟨[], []⟩
  | .value type => (context.space.valType type).map fun type => ⟨[], [type]⟩
  | .function index => context.space.signature index

def refTo (context : Context) (nullable : Bool) (index : Nat) : Option ValType :=
  (context.space.refType ⟨nullable, .defined index⟩).map .ref

def structFields (context : Context) (index : Nat) : Option (List FieldType) :=
  match context.space.compositeAt index with
  | some (.struct fields) => some fields
  | _ => none

def arrayCell (context : Context) (index : Nat) : Option FieldType :=
  match context.space.compositeAt index with
  | some (.array cell) => some cell
  | _ => none

def hasData (context : Context) (segment : Nat) : Bool :=
  context.dataCount.any (segment < ·)

/-- Whether a memory operand names a memory and keeps to the alignment of its access. -/
def admits (context : Context) (natural : Nat) (exact : Bool) (operand : MemoryOperand) : Bool :=
  operand.memory < context.memories.size &&
    if exact then operand.align == natural else operand.align ≤ natural

def isReadable (context : Context) (assigned : List Nat) (index : Nat) (type : ValType) : Bool :=
  index < context.paramCount || type.isDefaultable || assigned.contains index

end Context

def unpacked (field : FieldType) : ValType :=
  match field.storage with
  | .value type => type
  | _ => .i32

def isPacked (field : FieldType) : Bool :=
  match field.storage with
  | .value _ => false
  | _ => true

def holdsBytes (field : FieldType) : Bool :=
  match field.storage with
  | .value (.ref _) => false
  | _ => true

def nonNull : Operand → Operand
  | .known (.ref type) => .known (.ref ⟨false, type.heap⟩)
  | operand => operand

def sharing : Operand → Option Bool
  | .known (.ref ⟨_, .shared _⟩) => some true
  | .known _ => some false
  | _ => none

/-- What is left of a type after a cast to another failed. -/
def castRest (source target : RefType) : RefType :=
  ⟨source.nullable && !target.nullable, source.heap⟩

def selected : Operand → Operand → Option Operand
  | .someRef, _ | _, .someRef | .known (.ref _), _ | _, .known (.ref _) => none
  | .unknown, operand | operand, .unknown => some operand
  | .known left, .known right => if left = right then some (.known left) else none

namespace State

def labelTypes (state : State) (depth : Nat) : Option (List ValType) :=
  (state.frames[depth]?).map Frame.labelTypes

def bodyResults (state : State) : List ValType :=
  match state.frames.getLast? with
  | some frame => frame.results
  | none => []

def onFrame (state : State) (change : Frame → Option Frame) : Option State :=
  match state.frames with
  | [] => none
  | frame :: outer => (change frame).map fun frame => { state with frames := frame :: outer }

def opened (state : State) (form : FrameForm) (signature : Signature)
    (change : Frame → Option Frame) : Option State :=
  (state.onFrame change).map fun inner =>
    { inner with frames := Frame.enter form signature state.assigned :: inner.frames }

def apply (context : Context) (state : State) (params results : List ValType) : Option State :=
  state.onFrame (Frame.apply context.space params results)

def transfer (context : Context) (state : State) (types : List ValType) : Option State :=
  state.onFrame fun frame => (frame.popAll context.space types).map Frame.markUnreachable

def tailCall (context : Context) (state : State) (signature : Signature)
    (extra : List ValType) : Option State :=
  if TypeSpace.pairwise context.space.within signature.results state.bodyResults then
    state.transfer context (signature.params ++ extra)
  else none

def catches (context : Context) (state : State) (clause : CatchClause) : Bool :=
  let carried := match clause.tag with
    | some tag => context.tagParams tag
    | none => some []
  match carried, state.labelTypes clause.label with
  | some carried, some types =>
    let carried :=
      if clause.withReference then carried ++ [.ref ⟨false, .basic .exn⟩] else carried
    TypeSpace.pairwise context.space.within carried types
  | _, _ => false

end State

def ensure (condition : Bool) : Option Unit :=
  if condition then some () else none

def finish (context : Context) (state : State) : Option State :=
  match state.frames with
  | [] => none
  | frame :: outer => do
      ensure (frame.closes context.space)
      if frame.form = .conditional then
        ensure ((Frame.enter .otherwise ⟨frame.params, frame.results⟩ []).closes context.space)
      match outer with
      | [] => return ⟨[], frame.assigned⟩
      | next :: rest => return ⟨next.push frame.results :: rest, frame.assigned⟩

def otherwise (context : Context) (state : State) : Option State :=
  match state.frames with
  | [] => none
  | frame :: outer => do
      ensure (frame.form = .conditional && frame.closes context.space)
      let second := Frame.enter .otherwise ⟨frame.params, frame.results⟩ frame.assigned
      return ⟨second :: outer, frame.assigned⟩

/-- Whether a branch table may name a label that carries the given types. -/
def admitsTarget (context : Context) (frame : Frame) (arity : Nat) (types : List ValType) : Bool :=
  types.length == arity && (frame.popAll context.space types).isSome

def stepPlain (context : Context) (state : State) : TwinEngine.Operator → Option State
  | .unreachable => state.transfer context []
  | .nop => state.onFrame some
  | .otherwise => otherwise context state
  | .finish => finish context state
  | .branch depth => do state.transfer context (← state.labelTypes depth)
  | .branchIf depth => do
      let types ← state.labelTypes depth
      state.apply context (types ++ [.i32]) types
  | .branchTable targets fallback => do
      let types ← state.labelTypes fallback
      let state ← state.apply context [.i32] []
      let labels ← targets.mapM state.labelTypes
      let frame ← state.frames.head?
      ensure (labels.all (admitsTarget context frame types.length))
      state.transfer context types
  | .leave => state.transfer context state.bodyResults
  | .call function => do
      let signature ← context.functionSignature function
      state.apply context signature.params signature.results
  | .callIndirect table typeIndex => do
      let note ← context.tables[table]?
      ensure (context.space.refWithin note.element (.nullableOf .func))
      let signature ← context.space.signature typeIndex
      state.apply context (signature.params ++ [.i32]) signature.results
  | .tailCall function => do
      state.tailCall context (← context.functionSignature function) []
  | .tailCallIndirect table typeIndex => do
      let note ← context.tables[table]?
      ensure (context.space.refWithin note.element (.nullableOf .func))
      state.tailCall context (← context.space.signature typeIndex) [.i32]
  | .drop => state.onFrame fun frame => frame.popAny.map (·.2)
  | .select => state.onFrame fun frame => do
      let frame ← frame.pop context.space .i32
      let (second, frame) ← frame.popAny
      let (first, frame) ← frame.popAny
      return frame.pushOperand (← selected first second)
  | .localGet index => do
      let type ← context.locals[index]?
      ensure (context.isReadable state.assigned index type)
      state.apply context [] [type]
  | .localSet index => do
      let state ← state.apply context [← context.locals[index]?] []
      return { state with assigned := index :: state.assigned }
  | .localTee index => do
      let type ← context.locals[index]?
      let state ← state.apply context [type] [type]
      return { state with assigned := index :: state.assigned }
  | .globalGet index => do
      let note ← context.globals[index]?
      state.apply context [] [note.type]
  | .globalSet index => do
      let note ← context.globals[index]?
      ensure note.isMutable
      state.apply context [note.type] []
  | .tableGet table => do
      let note ← context.tables[table]?
      state.apply context [.i32] [.ref note.element]
  | .tableSet table => do
      let note ← context.tables[table]?
      state.apply context [.i32, .ref note.element] []
  | .tableSize table => do
      let _ ← context.tables[table]?
      state.apply context [] [.i32]
  | .tableGrow table => do
      let note ← context.tables[table]?
      state.apply context [.ref note.element, .i32] [.i32]
  | .tableFill table => do
      let note ← context.tables[table]?
      state.apply context [.i32, .ref note.element, .i32] []
  | .tableCopy target source => do
      let targetNote ← context.tables[target]?
      let sourceNote ← context.tables[source]?
      ensure (context.space.refWithin sourceNote.element targetNote.element)
      state.apply context [.i32, .i32, .i32] []
  | .tableInit table segment => do
      let note ← context.tables[table]?
      let element ← context.elements[segment]?
      ensure (context.space.refWithin element note.element)
      state.apply context [.i32, .i32, .i32] []
  | .elementDrop segment => do
      let _ ← context.elements[segment]?
      state.onFrame some
  | .dataDrop segment => do
      ensure (context.hasData segment)
      state.onFrame some
  | .constant value => state.apply context [] [typeOfKind value.kind]
  | .refIsNull => state.onFrame fun frame => frame.popRef.map fun (_, frame) => frame.push [.i32]
  | .refFunc function => do
      let typeIndex ← context.functions[function]?
      ensure (context.referable.all (·.contains function))
      state.apply context [] [← context.refTo false typeIndex]
  | .numeric operator =>
    state.apply context (operator.params.map typeOfKind) [typeOfKind operator.result]
  | .enter .. | .selectKind _ | .load .. | .store .. | .memorySize | .memoryGrow | .memoryFill
  | .memoryCopy | .memoryInit _ | .refNull _ => none

/-- Check an operator on structures, arrays or casts, or another that is not supported. -/
def stepExtension (context : Context) (state : State) : Extension → Option State
  | .fixed params results => state.apply context params results
  | .access natural exact operand params results => do
      ensure (context.admits natural exact operand)
      state.apply context params results
  | .vectorConstant => state.apply context [] [.v128]
  | .tryTable note clauses => do
      let signature ← context.blockSignature note
      let entered ← state.opened .block signature (Frame.popAll context.space signature.params)
      ensure (clauses.all (state.catches context))
      return entered
  | .throw tag => do state.transfer context (← context.tagParams tag)
  | .throwRef => state.transfer context [.ref (.nullableOf .exn)]
  | .callRef typeIndex => do
      let signature ← context.space.signature typeIndex
      state.apply context (signature.params ++ [← context.refTo true typeIndex]) signature.results
  | .tailCallRef typeIndex => do
      state.tailCall context (← context.space.signature typeIndex)
        [← context.refTo true typeIndex]
  | .refAsNonNull => state.onFrame fun frame =>
    frame.popRef.map fun (operand, frame) => frame.pushOperand (nonNull operand)
  | .branchOnNull depth => do
      let types ← state.labelTypes depth
      state.onFrame fun frame => do
        let (operand, frame) ← frame.popRef
        let frame ← frame.apply context.space types types
        return frame.pushOperand (nonNull operand)
  | .branchOnNonNull depth => do
      let types ← state.labelTypes depth
      match types.getLast? with
      | some (.ref target) => state.onFrame fun frame => do
          let (operand, frame) ← frame.popRef
          ensure (Frame.fits context.space (.ref target) (nonNull operand))
          frame.apply context.space types.dropLast types.dropLast
      | _ => none
  | .structNew typeIndex => do
      let fields ← context.structFields typeIndex
      state.apply context (fields.map unpacked) [← context.refTo false typeIndex]
  | .structNewDefault typeIndex => do
      let fields ← context.structFields typeIndex
      ensure (fields.all FieldType.isDefaultable)
      state.apply context [] [← context.refTo false typeIndex]
  | .structGet packed typeIndex field => do
      let field ← (← context.structFields typeIndex)[field]?
      ensure (isPacked field == packed)
      state.apply context [← context.refTo true typeIndex] [unpacked field]
  | .structSet typeIndex field => do
      let field ← (← context.structFields typeIndex)[field]?
      ensure field.isMutable
      state.apply context [← context.refTo true typeIndex, unpacked field] []
  | .arrayNew typeIndex => do
      let cell ← context.arrayCell typeIndex
      state.apply context [unpacked cell, .i32] [← context.refTo false typeIndex]
  | .arrayNewDefault typeIndex => do
      let cell ← context.arrayCell typeIndex
      ensure cell.isDefaultable
      state.apply context [.i32] [← context.refTo false typeIndex]
  | .arrayNewFixed typeIndex count => do
      let cell ← context.arrayCell typeIndex
      let result ← context.refTo false typeIndex
      state.onFrame fun frame =>
        (frame.popMany context.space (unpacked cell) count).map (Frame.push [result])
  | .arrayNewData typeIndex segment => do
      let cell ← context.arrayCell typeIndex
      ensure (holdsBytes cell && context.hasData segment)
      state.apply context [.i32, .i32] [← context.refTo false typeIndex]
  | .arrayNewElement typeIndex segment => do
      let cell ← context.arrayCell typeIndex
      let element ← context.elements[segment]?
      ensure (context.space.storageWithin (.value (.ref element)) cell.storage)
      state.apply context [.i32, .i32] [← context.refTo false typeIndex]
  | .arrayGet packed typeIndex => do
      let cell ← context.arrayCell typeIndex
      ensure (isPacked cell == packed)
      state.apply context [← context.refTo true typeIndex, .i32] [unpacked cell]
  | .arraySet typeIndex => do
      let cell ← context.arrayCell typeIndex
      ensure cell.isMutable
      state.apply context [← context.refTo true typeIndex, .i32, unpacked cell] []
  | .arrayFill typeIndex => do
      let cell ← context.arrayCell typeIndex
      ensure cell.isMutable
      state.apply context [← context.refTo true typeIndex, .i32, unpacked cell, .i32] []
  | .arrayCopy target source => do
      let targetCell ← context.arrayCell target
      let sourceCell ← context.arrayCell source
      ensure (targetCell.isMutable &&
        context.space.storageWithin sourceCell.storage targetCell.storage)
      state.apply context
        [← context.refTo true target, .i32, ← context.refTo true source, .i32, .i32] []
  | .arrayInitData typeIndex segment => do
      let cell ← context.arrayCell typeIndex
      ensure (cell.isMutable && holdsBytes cell && context.hasData segment)
      state.apply context [← context.refTo true typeIndex, .i32, .i32, .i32] []
  | .arrayInitElement typeIndex segment => do
      let cell ← context.arrayCell typeIndex
      let element ← context.elements[segment]?
      ensure (cell.isMutable &&
        context.space.storageWithin (.value (.ref element)) cell.storage)
      state.apply context [← context.refTo true typeIndex, .i32, .i32, .i32] []
  | .refTest target => do
      let heap ← context.space.heapType target.heap
      state.apply context [.ref ⟨true, context.space.topOf heap⟩] [.i32]
  | .refCast target => do
      let heap ← context.space.heapType target.heap
      state.apply context [.ref ⟨true, context.space.topOf heap⟩] [.ref ⟨target.nullable, heap⟩]
  | .branchOnCast onFailure depth source target => do
      let source ← context.space.refType source
      let target ← context.space.refType target
      ensure (context.space.refWithin target source)
      let types ← state.labelTypes depth
      let rest := castRest source target
      let (taken, kept) := if onFailure then (rest, target) else (target, rest)
      let last ← types.getLast?
      ensure (context.space.within (.ref taken) last)
      state.onFrame fun frame => do
        let frame ← frame.pop context.space (.ref source)
        let frame ← frame.apply context.space types.dropLast types.dropLast
        return frame.push [.ref kept]
  | .inspect kind count => state.onFrame fun frame => do
      let (taken, frame) ← popBasics kind count frame
      ensure (!((taken.map sharing).contains (some true) &&
        (taken.map sharing).contains (some false)))
      return frame.push [.i32]
  | .anyOfExternal => convertRef .external .any
  | .externalOfAny => convertRef .any .external
  | .refI31 => state.apply context [.i32] [.ref ⟨false, .basic .i31⟩]
where
  /-- Take several references to a basic heap type or to its shared form. -/
  popBasics (kind : BasicHeap) : Nat → Frame → Option (List Operand × Frame)
    | 0, frame => some ([], frame)
    | count + 1, frame => do
        let (operand, frame) ← frame.popBasic context.space kind
        let (operands, frame) ← popBasics kind count frame
        return (operand :: operands, frame)
  /-- Move a reference to another hierarchy. -/
  convertRef (source target : BasicHeap) : Option State := state.onFrame fun frame => do
    let (operand, frame) ← frame.popBasic context.space source
    let nullable := match operand with
      | .known (.ref type) => type.nullable
      | _ => false
    let heap := if sharing operand = some true then HeapType.shared target else .basic target
    return frame.push [.ref ⟨nullable, heap⟩]

def step (context : Context) (state : State) : Binary.Operator → Option State
  | .plain operator => stepPlain context state operator
  | .enter form note => do
      let signature ← context.blockSignature note
      let form := match form with
        | .block => FrameForm.block
        | .loop => FrameForm.loop
        | .conditional => FrameForm.conditional
      let condition : List ValType := if form = .conditional then [.i32] else []
      state.opened form signature (Frame.popAll context.space (signature.params ++ condition))
  | .selectType type => do
      let type ← context.space.valType type
      state.apply context [type, type, .i32] [type]
  | .refNull heap => do
      state.apply context [] [← context.space.valType (.ref ⟨true, heap⟩)]
  | .load kind operand => do
      ensure (context.admits (Nat.log2 kind.width) false operand)
      state.apply context [.i32] [typeOfKind kind.result]
  | .store kind operand => do
      ensure (context.admits (Nat.log2 kind.width) false operand)
      state.apply context [.i32, typeOfKind kind.operand] []
  | .memorySize memory => do
      let _ ← context.memories[memory]?
      state.apply context [] [.i32]
  | .memoryGrow memory => do
      let _ ← context.memories[memory]?
      state.apply context [.i32] [.i32]
  | .memoryFill memory => do
      let _ ← context.memories[memory]?
      state.apply context [.i32, .i32, .i32] []
  | .memoryCopy target source => do
      let _ ← context.memories[target]?
      let _ ← context.memories[source]?
      state.apply context [.i32, .i32, .i32] []
  | .memoryInit segment memory => do
      let _ ← context.memories[memory]?
      ensure (context.hasData segment)
      state.apply context [.i32, .i32, .i32] []
  | .extension operator => stepExtension context state operator

def steps (context : Context) : State → List Binary.Operator → Option State
  | state, [] => some state
  | state, operator :: rest => (step context state operator).bind (steps context · rest)

/-- Whether operators make a whole body with the given results: each is well typed, and the last
one, and no other, ends the body. -/
def bodyTyped (context : Context) (results : List ValType) (operators : List Binary.Operator) :
    Bool :=
  match steps context ⟨[Frame.enter .body ⟨[], results⟩ []], []⟩ operators with
  | some state => state.frames.isEmpty
  | none => false

/-! ## Constant expressions -/

def isConstant (context : Context) : Binary.Operator → Bool
  | .plain (.constant _) | .plain (.refFunc _) | .plain .finish | .refNull _ => true
  | .plain (.globalGet index) => (context.globals[index]?).any (!·.isMutable)
  | .plain (.numeric (.binaryInt _ operation)) =>
    match operation with
    | .add | .sub | .mul => true
    | _ => false
  | .extension operator =>
    match operator with
    | .vectorConstant | .structNew _ | .structNewDefault _ | .arrayNew _ | .arrayNewDefault _
    | .arrayNewFixed .. | .refI31 => true
    | _ => false
  | _ => false

def constantTyped (context : Context) (type : ValType) (operators : List Binary.Operator) : Bool :=
  operators.all (isConstant context) &&
    bodyTyped { context with referable := none } [type] operators

def functionsNamed (operators : List Binary.Operator) : List Nat :=
  operators.filterMap fun
    | .plain (.refFunc function) => some function
    | _ => none

end TwinEngine.Validation
