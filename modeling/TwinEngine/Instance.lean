import TwinEngine.Host

/-!
Contract: instances of modules.

Owns: the state of an instance, the engine that runs it, and the operations of code on that state.

An operation gives its result, or a trap, together with the state after it. A trap leaves the state
as it was.
-/

namespace TwinEngine

open Machine (LoadedUnit)

/-- Something done to a state, which ends with a result or a trap. -/
abbrev Effect (σ α : Type) : Type := σ → Except Trap α × σ

structure Program where
  units : Array LoadedUnit
  resolutions : Array Resolution
  dispatch : Array (List Nat)
deriving Inhabited

namespace Program

def load (compiled : CompiledModule) : Except Error Program := do
  let units ← compiled.units.toList.mapM Machine.CodeUnit.load
  return ⟨units.toArray, compiled.resolutions, compiled.dispatch⟩

def interprets (program : Program) (function : Nat) : Bool :=
  program.resolutions[function]? == some .interpreted

end Program

inductive Engine where
  | interpreted
  | compiled (program : Program)
deriving Inhabited

def Engine.interprets : Engine → Nat → Bool
  | .interpreted, _ => true
  | .compiled program, function => program.interprets function

inductive ImportTarget where
  | host (function : HostFunction HostProgram)
  | function (id function : Nat)

/-- An instance of a module. References are payloads, and dropped segments are empty. -/
structure Instance where
  source : Module := {}
  engine : Engine := .interpreted
  imports : Array ImportTarget := #[]
  memory : Option Memory := none
  tables : Array Table := #[]
  globals : Array UInt64 := #[]
  data : Array ByteArray := #[]
  elements : Array (Array UInt64) := #[]
deriving Inhabited

namespace Instance

def view (live : Instance) : InstanceView :=
  ⟨live.source, live.memory, live.tables, live.globals⟩

def global (live : Instance) (index : Nat) : Option Value := do
  let declared ← live.source.globals[index]?
  let payload ← live.globals[index]?
  return .ofPayload declared.kind payload

/-! ## Memory -/

@[inline] def readMemory {α : Type} (read : Memory → Except Trap α) (live : Instance) :
    Except Trap α :=
  match live.memory with
  | none => .error .memoryOutOfBounds
  | some memory => read memory

@[inline] def changeMemory (change : Memory → Except Trap Memory) : Effect Instance Unit
  | { source, engine, imports, memory := some memory, tables, globals, data, elements } =>
    match change memory with
    | .ok memory =>
      (.ok (), ⟨source, engine, imports, some memory, tables, globals, data, elements⟩)
    | .error trap =>
      (.error trap, ⟨source, engine, imports, some memory, tables, globals, data, elements⟩)
  | live => (.error .memoryOutOfBounds, live)

/-- The answer of code to a request for more room that was refused. -/
def growRefused : UInt32 := 0xffffffff

/-- A size, or the mark of a refusal. -/
def growAnswer (old : Option Nat) : UInt32 := (old.map UInt32.ofNat).getD growRefused

def growMemory (delta : Nat) : Effect Instance UInt32
  | { source, engine, imports, memory := some memory, tables, globals, data, elements } =>
    let (old, memory) := memory.grow delta
    (.ok (growAnswer old),
      ⟨source, engine, imports, some memory, tables, globals, data, elements⟩)
  | live => (.error .memoryOutOfBounds, live)

def initMemory (segment target source length : Nat) : Effect Instance Unit := fun live =>
  match live.data[segment]? with
  | some data => changeMemory (Memory.init · target data source length) live
  | none => (.error .memoryOutOfBounds, live)

def dropData (segment : Nat) (live : Instance) : Instance :=
  { live with data := live.data.setIfInBounds segment .empty }

/-! ## Tables -/

def table (live : Instance) (index : Nat) : Except Trap Table :=
  match live.tables[index]? with
  | some table => .ok table
  | none => .error .tableOutOfBounds

def changeTable (index : Nat) (change : Table → Except Trap Table) : Effect Instance Unit :=
  fun live =>
    match live.table index >>= change with
    | .ok table => (.ok (), { live with tables := live.tables.setIfInBounds index table })
    | .error trap => (.error trap, live)

def growTable (index delta : Nat) (payload : UInt64) : Effect Instance UInt32 := fun live =>
  match live.table index with
  | .ok table =>
    let (old, table) := table.grow delta payload
    (.ok (growAnswer old), { live with tables := live.tables.setIfInBounds index table })
  | .error trap => (.error trap, live)

def copyTable (targetTable sourceTable target source length : Nat) : Effect Instance Unit :=
  fun live =>
    if targetTable = sourceTable then
      changeTable targetTable (Table.copyWithin · target source length) live
    else
      match live.table sourceTable with
      | .ok origin =>
        changeTable targetTable (Table.copyFrom · target origin.entries source length) live
      | .error trap => (.error trap, live)

def initTable (segment index target source length : Nat) : Effect Instance Unit := fun live =>
  match live.elements[segment]? with
  | some items => changeTable index (Table.copyFrom · target items source length) live
  | none => (.error .tableOutOfBounds, live)

def dropElements (segment : Nat) (live : Instance) : Instance :=
  { live with elements := live.elements.setIfInBounds segment #[] }

/-! ## Globals -/

def getGlobal (live : Instance) (index : Nat) : UInt64 := live.globals.getD index 0

def setGlobal (index : Nat) (payload : UInt64) : Instance → Instance
  | { source, engine, imports, memory, tables, globals, data, elements } =>
    ⟨source, engine, imports, memory, tables, globals.setIfInBounds index payload, data, elements⟩

end Instance

end TwinEngine
