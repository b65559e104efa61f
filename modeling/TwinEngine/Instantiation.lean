import TwinEngine.Store

/-!
Contract: making an instance.

Owns: linking of imports, evaluation of constant expressions, and the copying of active segments.

Does not own: running the start function (`World`).

An instance is added to its store before its active segments are copied. Whoever adds it takes it
out again if that fails.
-/

namespace TwinEngine

/-- The payload of a constant expression, given the globals so far and the number of the instance.
-/
def ConstExpr.evaluate (globals : Array UInt64) (id : Nat) : ConstExpr → Except Error UInt64
  | .constant value => .ok value.value.payload
  | .refNull _ => .ok nullPayload
  | .refFunc function =>
    .ok (Value.funcRef (some ⟨UInt32.ofNat id, UInt32.ofNat function⟩)).payload
  | .globalGet index =>
    match globals[index]? with
    | some payload => .ok payload
    | none => .error (.link (.uninitializedGlobal index))

def ConstExpr.offset (globals : Array UInt64) (id : Nat) (expr : ConstExpr) : Except Error Nat :=
  (expr.evaluate globals id).map fun payload => payload.toUInt32.toNat

namespace Store

def importTarget (store : Store) (imports : Imports HostProgram) (entry : FunctionImport) :
    Except Error (ImportTarget × FunctionType) :=
  match imports.function? entry.moduleName entry.name with
  | some function => .ok (.host function, function.type)
  | none =>
    match imports.instance? entry.moduleName with
    | none => .error (.link (.unknownImport entry.moduleName entry.name))
    | some id =>
      match store.instances[id]? with
      | none => .error (.link (.unknownInstanceFor id entry.moduleName))
      | some live =>
        match live.source.exportedFunction entry.name with
        | none => .error (.link (.missingExport id entry.name))
        | some function =>
          match live.source.functionType function with
          | none => .error (.internal (.exportType entry.name))
          | some type => .ok (.function id function, type)

def resolveImport (store : Store) (source : Module) (imports : Imports HostProgram)
    (entry : FunctionImport) : Except Error ImportTarget :=
  match source.types[entry.typeIndex]? with
  | none => .error (.internal (.importType entry.typeIndex))
  | some expected => do
      let (target, actual) ← store.importTarget imports entry
      if actual = expected then return target
      else .error (.link (.importType entry.moduleName entry.name actual expected))

end Store

namespace Instance

/-- Evaluate the initial values of globals, each of which sees those before it. -/
def initialGlobals (source : Module) (id : Nat) : Except Error (Array UInt64) :=
  source.globals.toList.foldlM (fun globals global => do
    return globals.push (← global.init.evaluate globals id)) #[]

def initialMemory (source : Module) : Except Error (Option Memory) :=
  match source.memory with
  | none => .ok none
  | some type =>
    match Memory.ofType? type with
    | some memory => .ok (some memory)
    | none => .error (.unsupported (.memoryPages type.initial))

def initialTable (globals : Array UInt64) (id : Nat) (type : TableType) : Except Error Table := do
  let init ← match type.init with
    | some expr => expr.evaluate globals id
    | none => .ok nullPayload
  return .new type.element type.initial type.maximum init

def initialElements (globals : Array UInt64) (id : Nat) (segment : ElementSegment) :
    Except Error (Array UInt64) := do
  return (← segment.items.mapM (ConstExpr.evaluate globals id)).toArray

/-- A change of an instance in its place, as far as it comes before an error. -/
abbrev Setup : Type := Instance → Except Error Unit × Instance

def Setup.andThen (first second : Setup) : Setup := fun live =>
  match first live with
  | (.ok (), live) => second live
  | failed => failed

def Setup.each {α : Type} (setup : α → Setup) : List α → Setup
  | [] => fun live => (.ok (), live)
  | item :: items => (setup item).andThen (each setup items)

/-- Copy an active segment to the place that its offset names. It is then empty. -/
def copyActive (id : Nat) (offset : ConstExpr) (copy : Nat → Effect Instance Unit)
    (drop : Instance → Instance) : Setup := fun live =>
  match offset.offset live.globals id with
  | .error error => (.error error, live)
  | .ok place =>
    match copy place live with
    | (.error trap, live) => (.error (.trap trap), live)
    | (.ok (), live) => (.ok (), drop live)

/-- Copy an active element segment into its table. Active and declared segments are then empty. -/
def applyElement (id : Nat) (entry : ElementSegment × Nat) : Setup :=
  match entry.1.mode with
  | .passive => fun live => (.ok (), live)
  | .declared => fun live => (.ok (), live.dropElements entry.2)
  | .active table offset =>
    copyActive id offset (initTable entry.2 table · 0 entry.1.items.length)
      (·.dropElements entry.2)

/-- Copy an active data segment into the memory. It is then empty. -/
def applyData (id : Nat) (entry : DataSegment × Nat) : Setup :=
  match entry.1.offset with
  | none => fun live => (.ok (), live)
  | some offset =>
    copyActive id offset (initMemory entry.2 · 0 entry.1.bytes.length) (·.dropData entry.2)

def applySegments (source : Module) (id : Nat) : Setup :=
  (Setup.each (applyElement id) source.elements.toList.zipIdx).andThen
    (Setup.each (applyData id) source.data.toList.zipIdx)

end Instance

def EngineOptions.engine (source : Module) : EngineOptions → Except Error Engine
  | .interpreted => .ok .interpreted
  | .compiled options => do
      return .compiled (← Program.load (← (source.compile options).outcome))

def maxInstances : Nat := 2 ^ 32

namespace Store

/-- The instance of a module before its active segments are copied, with the number it will have. -/
def allocate (store : Store) (source : Module) (imports : Imports HostProgram)
    (engine : Engine) : Except Error Instance := do
  let id := store.instances.size
  if maxInstances ≤ id then .error (.link .tooManyInstances)
  let targets ← source.imports.toList.mapM (store.resolveImport source imports)
  let globals ← Instance.initialGlobals source id
  let memory ← Instance.initialMemory source
  let tables ← source.tables.toList.mapM (Instance.initialTable globals id)
  let elements ← source.elements.toList.mapM (Instance.initialElements globals id)
  .ok
    { source, engine
      imports := targets.toArray
      memory, globals
      tables := tables.toArray
      data := source.data.map (·.bytes.toByteArray)
      elements := elements.toArray }

/-- Copy the active segments of an instance of the store. An error leaves those copied before it. -/
def applySegments (store : Store) (source : Module) (id : Nat) : Except Error Unit × Store :=
  match store.access id fun live =>
    match Instance.applySegments source id live with
    | (result, live) => (.ok result, live) with
  | (.error trap, store) => (.error (.trap trap), store)
  | (.ok result, store) => (result, store)

end Store

end TwinEngine
