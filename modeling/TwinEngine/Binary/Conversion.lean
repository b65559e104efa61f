import TwinEngine.Module
import TwinEngine.Component.Reader
import TwinEngine.Component.Validation

/-!
Contract: the supported modules among the valid ones.

Owns: which types, operators and constant expressions are supported, and `Module.parse`, which reads
a module from its bytes.

A module is validated as a whole before anything in it is refused as unsupported. What is refused
first is then what stands first, section by section. The modules of a component count as one, each
continuing the one before it.
-/

namespace TwinEngine.Binary

/-- The kind of a value of a reference type. Whether it admits null does not count. -/
def RefType.kind (type : RefType) : Except Error ValueKind :=
  match type.heap with
  | .basic .func => .ok .funcRef
  | .basic .external => .ok .externRef
  | _ => .error (.unsupported .referenceType)

def ValType.kind : ValType → Except Error ValueKind
  | .i32 => .ok .i32
  | .i64 => .ok .i64
  | .f32 => .ok .f32
  | .f64 => .ok .f64
  | .v128 => .error (.unsupported .vectors)
  | .ref type => type.kind

def HeapType.kind : HeapType → Except Error ValueKind
  | .basic .func => .ok .funcRef
  | .basic .external => .ok .externRef
  | _ => .error (.unsupported .heapType)

def Signature.functionType (signature : Signature) : Except Error FunctionType := do
  let params ← signature.params.mapM ValType.kind
  let results ← signature.results.mapM ValType.kind
  return ⟨params, results⟩

def SubType.functionType (type : SubType) : Except Error FunctionType :=
  match type.composite with
  | .func signature => signature.functionType
  | _ => .error (.unsupported .nonFunctionType)

def ImportEntry.functionImport (entry : ImportEntry) : Except Error FunctionImport :=
  match entry.note with
  | .func typeIndex => .ok ⟨entry.moduleName, entry.name, typeIndex⟩
  | _ => .error (.unsupported (.nonFunctionImport entry.moduleName entry.name))

/-- The value of a constant expression that has been read so far, with the operators that follow. -/
def constantFrom : Option ConstExpr → List Operator → Except Error ConstExpr
  | none, [] | none, .plain .finish :: _ => .error (.internal .emptyConstant)
  | some value, [] | some value, .plain .finish :: _ => .ok value
  | before, operator :: rest => do
      let value ← match operator with
        | .plain (.constant value) => .ok (ConstExpr.constant value)
        | .refNull heap => heap.kind.map ConstExpr.refNull
        | .plain (.refFunc function) => .ok (ConstExpr.refFunc function)
        | .plain (.globalGet index) => .ok (ConstExpr.globalGet index)
        | _ => .error (.unsupported .constantOperator)
      if before.isSome then .error (.unsupported .extendedConstant)
      else constantFrom (some value) rest

def constantExpr (operators : List Operator) : Except Error ConstExpr :=
  constantFrom none operators

def TableEntry.tableType (entry : TableEntry) : Except Error TableType := do
  let init ← match entry.init with
    | none => .ok none
    | some init => (constantExpr init).map some
  return ⟨← entry.note.element.kind, entry.note.limits.initial, entry.note.limits.maximum, init⟩

/-- The only memory of a module, which is the one it has already if it has one. -/
def onlyMemory : Option MemoryType → List MemoryNote → Except Error (Option MemoryType)
  | memory, [] => .ok memory
  | none, [note] => .ok (some ⟨note.limits.initial, note.limits.maximum⟩)
  | _, _ => .error (.unsupported .multipleMemories)

def GlobalEntry.global (entry : GlobalEntry) : Except Error Global := do
  let kind ← entry.note.type.kind
  return ⟨kind, entry.note.isMutable, ← constantExpr entry.init⟩

def ExportEntry.supported (entry : ExportEntry) : Except Error Export :=
  match entry.kind with
  | .func => .ok ⟨entry.name, .func, entry.index⟩
  | .table => .ok ⟨entry.name, .table, entry.index⟩
  | .memory => .ok ⟨entry.name, .memory, entry.index⟩
  | .global => .ok ⟨entry.name, .global, entry.index⟩
  | .tag => .error (.unsupported .tagExport)

def ElementEntry.segment (entry : ElementEntry) : Except Error ElementSegment := do
  let (kind, items) ← match entry.items with
    | .functions indices => .ok (.funcRef, indices.map .refFunc)
    | .expressions type items => do
        let items ← items.mapM constantExpr
        pure (← type.kind, items)
  let mode ← match entry.place with
    | .passive => .ok .passive
    | .declared => .ok .declared
    | .active table offset => (constantExpr offset).map (.active table)
  return ⟨kind, items, mode⟩

def DataEntry.segment (entry : DataEntry) : Except Error DataSegment :=
  match entry.place with
  | none => .ok ⟨entry.bytes, none⟩
  | some (_, offset) => (constantExpr offset).map fun offset => ⟨entry.bytes, some offset⟩

def BlockNote.blockType : BlockNote → Except Error BlockType
  | .empty => .ok .empty
  | .value type => type.kind.map .value
  | .function index => .ok (.function index)

/-- The operator that is run. There is one memory, so memory indices are dropped. -/
def Operator.supported : Operator → Except Error TwinEngine.Operator
  | .plain operator => .ok operator
  | .enter form note => note.blockType.map (.enter form)
  | .selectType type => type.kind.map .selectKind
  | .refNull heap => heap.kind.map .refNull
  | .load kind operand => .ok (.load kind operand.offset)
  | .store kind operand => .ok (.store kind operand.offset)
  | .memorySize _ => .ok .memorySize
  | .memoryGrow _ => .ok .memoryGrow
  | .memoryFill _ => .ok .memoryFill
  | .memoryCopy .. => .ok .memoryCopy
  | .memoryInit segment _ => .ok (.memoryInit segment)
  | .extension _ => .error (.unsupportedOpcode none)

def CodeEntry.body (entry : CodeEntry) : Except Error Body := do
  let runs ← entry.locals.mapM fun (count, type) => do
    let kind ← type.kind
    return List.replicate count kind
  let operators ← entry.operators.mapM Operator.supported
  return ⟨runs.flatten, annotate operators⟩

/-- A module extended by what valid sections describe. A later start function and later names
take the place of earlier ones. -/
def Sections.extending (module : Module) (sections : Sections) : Except Error Module := do
  let types ← sections.types.flatten.mapM SubType.functionType
  let imports ← sections.imports.mapM ImportEntry.functionImport
  let tables ← sections.tables.mapM TableEntry.tableType
  let memory ← onlyMemory module.memory sections.memories
  let globals ← sections.globals.mapM GlobalEntry.global
  let exports ← sections.exports.mapM ExportEntry.supported
  let elements ← sections.elements.mapM ElementEntry.segment
  let bodies ← sections.code.mapM CodeEntry.body
  let data ← sections.data.mapM DataEntry.segment
  return {
    types := module.types ++ types
    imports := module.imports ++ imports
    functions := module.functions ++ sections.functions
    tables := module.tables ++ tables
    memory := memory
    globals := module.globals ++ globals
    exports := module.exports ++ exports
    start := sections.start <|> module.start
    elements := module.elements ++ elements
    data := module.data ++ data
    bodies := module.bodies ++ bodies
    names := sections.names ++ module.names }

def Sections.module (sections : Sections) : Except Error Module := Sections.extending {} sections

end TwinEngine.Binary

namespace TwinEngine.Component

open TwinEngine.Binary

mutual

def Item.sections : Item → List Sections
  | .coreModule sections => [sections]
  | .component items => sectionsOf items
  | .names bytes => [{ names := addNames [] bytes }]
  | _ => []

def sectionsOf : List Item → List Sections
  | [] => []
  | item :: rest => item.sections ++ sectionsOf rest

end

def moduleOf (items : List Item) : Except Error Module :=
  (sectionsOf items).foldlM Sections.extending {}

end TwinEngine.Component

namespace TwinEngine

def Module.parse (bytes : List UInt8) : Except Error Module :=
  match Binary.Sections.ofBytes? bytes with
  | some sections =>
    if Validation.sectionsValid sections then sections.module else .error .malformed
  | none =>
    match Component.ofBytes? bytes with
    | some items =>
      if Component.itemsValid items then Component.moduleOf items else .error .malformed
    | none => .error .malformed

end TwinEngine
