import TwinEngine.Module
import TwinEngine.Normalized
import TwinEngine.TypeStack

/-!
Contract: the analysis of a body into normalized code.

Owns: the single pass that walks a body with a stack of kinds, replaces structured control by labels
and jumps, and puts a `dropKeep` in front of every branch that leaves values behind.

After an unconditional transfer, instructions are skipped up to the `otherwise` or `finish` that
ends its effect; the labels among them are kept.
-/

namespace TwinEngine

namespace Analysis

structure Context where
  source : Module
  type : FunctionType
  body : Body
  locals : Array ValueKind

structure State where
  stack : TypeStack
  code : Array Normalized
  nextLabel : Nat

namespace State

def emit (state : State) (instr : Normalized) : State :=
  { state with code := state.code.push instr }

def push (state : State) (kind : ValueKind) : State :=
  { state with stack := state.stack.push kind }

def attempt {α : Type} (state : State) (outcome : TypeStack.Outcome α) : Except Error (α × State) :=
  match outcome with
  | (.ok value, stack) => .ok (value, { state with stack := stack })
  | (.error fault, _) => .error fault

def perform (state : State) (outcome : TypeStack.Outcome Unit) : Except Error State :=
  (state.attempt outcome).map Prod.snd

def pop (state : State) (expected : ValueKind) : Except Error State :=
  state.perform (state.stack.pop expected)

def popAll (state : State) : List ValueKind → Except Error State
  | [] => .ok state
  | kind :: kinds => do
      let state ← state.pop kind
      state.popAll kinds

def pushAll (state : State) (kinds : List ValueKind) : State :=
  kinds.foldl push state

def applyType (state : State) (type : FunctionType) : Except Error State := do
  let state ← state.popAll type.params.reverse
  return state.pushAll type.results

end State

namespace Context

def bodyType (context : Context) : FunctionType := ⟨[], context.type.results⟩

def localKind (context : Context) (index : Nat) : Except Error ValueKind :=
  match context.locals[index]? with
  | some kind => .ok kind
  | none => .error (.internal (.indexOutOfRange .locals index))

def globalKind (context : Context) (index : Nat) : Except Error ValueKind :=
  match context.source.globals[index]? with
  | some global => .ok global.kind
  | none => .error (.internal (.indexOutOfRange .globals index))

def tableKind (context : Context) (table : Nat) : Except Error ValueKind :=
  match context.source.tables[table]? with
  | some type => .ok type.element
  | none => .error (.internal (.indexOutOfRange .tables table))

def declaredType (context : Context) (index : Nat) : Except Error FunctionType :=
  match context.source.types[index]? with
  | some type => .ok type
  | none => .error (.internal (.typeIndexOutOfRange index))

def calleeType (context : Context) (function : Nat) : Except Error FunctionType :=
  match context.source.functionType function with
  | some type => .ok type
  | none => .error (.internal (.unknownCallee function))

def openerType (context : Context) (opener : Nat) : Except Error FunctionType :=
  match context.body.instructions[opener]? with
  | some instr =>
    match instr.operator with
    | .enter _ type => context.source.blockType type
    | other => .error (.internal (.notAnOpener other))
  | none => .error (.internal (.branchTargetOutOfRange opener))

/-- The scope that a jump from an index to a label leaves or re-enters, and its type. -/
def targetScope (context : Context) (index label : Nat) :
    Except Error (Scope × FunctionType) :=
  if index < label then
    match context.body.instructions[label]? with
    | none => .error (.internal (.branchTargetOutOfRange label))
    | some finish =>
      match finish.scope with
      | some opener => (context.openerType opener).map ((.block opener, ·))
      | none => .ok (.function, context.bodyType)
  else (context.openerType label).map ((.block label, ·))

/-- The instruction that drops what a jump from an index to a label leaves behind, if anything.
Forward jumps carry the results of the block, jumps back to a loop its parameters. -/
def unwind (context : Context) (stack : TypeStack) (index label : Nat) :
    Except Error (Option Normalized) := do
  let (scope, type) ← context.targetScope index label
  let kept := if index < label then type.results.length else type.params.length
  let entry ← stack.scope scope
  let dropped := stack.length - (entry.depth - entry.params + kept)
  if dropped = 0 then return none
  return some
    (.dropKeep ((stack.live.drop kept).take dropped).reverse (stack.live.take kept).reverse)

end Context

def resolved : Option Nat → Except Error Nat
  | some label => .ok label
  | none => .error (.internal .unresolvedBranch)

def Context.emitReturn (context : Context) (state : State) : Except Error State := do
  let state ← state.popAll context.type.results.reverse
  return state.emit (.leave context.type.results)

def State.emitAfter (state : State) (first : Option Normalized) (second : Normalized) : State :=
  match first with
  | some instr => (state.emit instr).emit second
  | none => state.emit second

/-- A branch table in the making: what each target met so far is reached through, the code that
unwinds for the targets that need it, and the next free label. -/
structure BranchTable where
  routes : List (Nat × Nat)
  unwinds : Array Normalized
  nextLabel : Nat

def Context.routeTargets (context : Context) (stack : TypeStack) (index : Nat) :
    List Nat → BranchTable → Except Error BranchTable
  | [], table => .ok table
  | target :: targets, table =>
    match table.routes.lookup target with
    | some _ => context.routeTargets stack index targets table
    | none => do
        match ← context.unwind stack index target with
        | none =>
          context.routeTargets stack index targets
            { table with routes := (target, target) :: table.routes }
        | some unwind =>
          let label := table.nextLabel
          context.routeTargets stack index targets
            { routes := (target, label) :: table.routes
              unwinds := ((table.unwinds.push (.label label)).push unwind).push (.goto target)
              nextLabel := label + 1 }

/-- A branch table: a plain jump when there is one target only, and otherwise a switch followed by
the unwinding code of the targets that need it. -/
def Context.branchTable (context : Context) (state : State) (index : Nat) (targets : List Nat) :
    Except Error State :=
  match targets with
  | [target] => do
      let state := state.emit (.drop .i32)
      let unwind ← context.unwind state.stack index target
      return state.emitAfter unwind (.goto target)
  | targets => do
      let table ← context.routeTargets state.stack index targets ⟨[], #[], state.nextLabel⟩
      let routed := targets.map fun target => (table.routes.lookup target).getD target
      return { state with
        code := state.code.push (.switch routed) ++ table.unwinds
        nextLabel := table.nextLabel }

def Context.simple (context : Context) (state : State) (operator : Operator) :
    Except Error State :=
  match operator with
  | .localGet index => do return state.push (← context.localKind index)
  | .localSet index => do state.pop (← context.localKind index)
  | .globalGet index => do return state.push (← context.globalKind index)
  | .globalSet index => do state.pop (← context.globalKind index)
  | .tableGet table => do
      let state ← state.pop .i32
      return state.push (← context.tableKind table)
  | .tableSet table => do
      let kind ← context.tableKind table
      state.popAll [kind, .i32]
  | .tableSize _ | .memorySize => .ok (state.push .i32)
  | .tableGrow table => do
      let state ← state.pop .i32
      let state ← state.pop (← context.tableKind table)
      return state.push .i32
  | .tableFill table => do
      let state ← state.pop .i32
      let state ← state.pop (← context.tableKind table)
      state.pop .i32
  | .tableCopy .. | .tableInit .. | .memoryFill | .memoryCopy | .memoryInit _ =>
    state.popAll [.i32, .i32, .i32]
  | .elementDrop _ | .dataDrop _ => .ok state
  | .load kind _ => do
      let state ← state.pop .i32
      return state.push kind.result
  | .store kind _ => state.popAll [kind.operand, .i32]
  | .memoryGrow => do
      let state ← state.pop .i32
      return state.push .i32
  | .constant value => .ok (state.push value.kind)
  | .refNull kind => .ok (state.push kind)
  | .refIsNull => do
      let (kind, state) ← state.attempt state.stack.popAny
      if kind.isRef then return state.push .i32
      else throw (.typeMismatch .funcRef (some kind))
  | .refFunc _ => .ok (state.push .funcRef)
  | .numeric numeric => do
      let state ← state.popAll numeric.params.reverse
      return state.push numeric.result
  | other => .error (.unsupportedOpcode (some other))

def Context.isOtherwise (context : Context) (index : Nat) : Bool :=
  (context.body.instructions[index]?).map Instruction.operator == some .otherwise

/-- Process one instruction. The answer says whether control was transferred unconditionally. -/
def Context.step (context : Context) (state : State) (index : Nat) (instr : Instruction) :
    Except Error (State × Bool) :=
  match instr.operator with
  | .nop => .ok (state, false)
  | .unreachable => .ok (state.emit .trap, true)
  | .enter .conditional type => do
      let state ← state.pop .i32
      let type ← context.source.blockType type
      let state ← state.perform (state.stack.enter (.block index) type)
      let target ← resolved instr.labelFalse
      let state :=
        if context.isOtherwise (target - 1) then { state with stack := state.stack.snapshot }
        else state
      return (state.emit (.ifZero target), false)
  | .enter _ type => do
      let type ← context.source.blockType type
      let state ← state.perform (state.stack.enter (.block index) type)
      return (state, false)
  | .otherwise => do
      let state ← state.perform state.stack.unsnapshot
      let target ← resolved instr.labelTrue
      return (state.emit (.goto target), false)
  | .finish =>
    match instr.scope with
    | some opener => do
        let state ← state.perform (state.stack.exit (.block opener))
        return (state, false)
    | none => .ok (state, false)
  | .branch _ => do
      let target ← resolved instr.labelTrue
      let unwind ← context.unwind state.stack index target
      return (state.emitAfter unwind (.goto target), true)
  | .branchIf _ => do
      let state ← state.pop .i32
      let target ← resolved instr.labelTrue
      match ← context.unwind state.stack index target with
      | some unwind =>
        let past ← resolved instr.labelFalse
        return (((state.emit (.ifZero past)).emit unwind).emit (.goto target), false)
      | none => return (state.emit (.ifNonzero target), false)
  | .branchTable .. => do
      let state ← state.pop .i32
      let state ← context.branchTable state index instr.labelTable
      return (state, true)
  | .leave => do return (← context.emitReturn state, true)
  | .call function => do
      let state ← state.applyType (← context.calleeType function)
      return (state.emit (.call function), false)
  | .callIndirect table typeIndex => do
      let state ← state.pop .i32
      let state ← state.applyType (← context.declaredType typeIndex)
      return (state.emit (.callIndirect typeIndex table), false)
  | .tailCall function => do
      let state ← state.applyType (← context.calleeType function)
      return (← context.emitReturn (state.emit (.call function)), true)
  | .tailCallIndirect table typeIndex => do
      let state ← state.pop .i32
      let state ← state.applyType (← context.declaredType typeIndex)
      return (← context.emitReturn (state.emit (.callIndirect typeIndex table)), true)
  | .drop => do
      let (kind, state) ← state.attempt state.stack.popAny
      return (state.emit (.drop kind), false)
  | .select | .selectKind _ => do
      let state ← state.pop .i32
      let kind ← state.stack.peek
      let state ← state.popAll [kind, kind]
      return ((state.push kind).emit (.select kind), false)
  | .localTee index => do
      let kind ← context.localKind index
      let state ← state.pop kind
      return ((state.push kind).emit (.localTee index kind), false)
  | other => do
      let state ← context.simple state other
      return (state.emit (.operator other), false)

def Context.located (context : Context) (function index : Nat) {α : Type} :
    Except Error α → Except Error α
  | .ok value => .ok value
  | .error cause =>
    .error (.analysis function index
      ((context.body.instructions[index]?).map Instruction.operator) cause)

/-- Whether skipped code goes on at an instruction, after a transfer at a depth. -/
def isSkipped (depth : Nat) (instr : Instruction) : Bool :=
  depth < instr.depth ||
    (instr.operator != .otherwise && instr.operator != .finish)

/-- Go on at an instruction that ends the effect of a transfer. -/
def resume (state : State) (instr : Instruction) : Except Error State :=
  match instr.operator with
  | .finish =>
    state.perform (state.stack.restore ((instr.scope.map Scope.block).getD .function))
  | _ => .ok state

/-- Process the instructions from an index on. `transfer` is the depth of the last unconditional
transfer while code is skipped, and `marks` says which indices are labels. -/
def Context.stepsFrom (context : Context) (function : Nat) (marks : Array Bool) :
    List Instruction → Nat → Option Nat → State → Except Error State
  | [], _, _, state => .ok state
  | instr :: rest, index, transfer, state => do
      let state := if marks.getD index false then state.emit (.label index) else state
      match transfer with
      | some depth =>
        if isSkipped depth instr then
          context.stepsFrom function marks rest (index + 1) transfer state
        else
          let state ← context.located function index (resume state instr)
          let (state, transfers) ←
            context.located function index (context.step state index instr)
          context.stepsFrom function marks rest (index + 1)
            (if transfers then some instr.depth else none) state
      | none =>
        let (state, transfers) ←
          context.located function index (context.step state index instr)
        context.stepsFrom function marks rest (index + 1)
          (if transfers then some instr.depth else none) state

def labelMarks (instructions : Array Instruction) : Array Bool :=
  instructions.foldl
    (fun marks instr =>
      instr.labels.foldl (fun marks label => marks.setIfInBounds label true) marks)
    (Array.replicate instructions.size false)

def Context.run (context : Context) (function : Nat) : Except Error (Array Normalized) := do
  let instructions := context.body.instructions
  let last := instructions.size - 1
  let start : State := ⟨.empty, Array.emptyWithCapacity instructions.size, instructions.size⟩
  let state ← context.located function 0
    (start.perform (start.stack.enter .function context.bodyType))
  let state ←
    context.stepsFrom function (labelMarks instructions) instructions.toList 0 none state
  let state ← context.located function last (context.emitReturn state)
  context.located function last state.stack.verifyEmpty
  return state.code

end Analysis

def Module.analyze (source : Module) (function : Nat) : Except Error (Array Normalized) :=
  match source.body function with
  | none => .error (.internal (.noBody function))
  | some body =>
    match source.functionType function with
    | none => .error (.internal (.noType function))
    | some type =>
      let context : Analysis.Context :=
        ⟨source, type, body, (type.params ++ body.locals).toArray⟩
      context.run function

end TwinEngine
