import TwinEngine.Binary.Section
import TwinEngine.Validation.Body

/-!
Contract: the rules for a whole module.

Owns: which sections make a valid module.

Does not own: typing of operators (`Validation.Body`), or which valid modules are supported
(`Binary.Conversion`).

The sections are checked in their order, and each check sees what stands before it.
-/

namespace TwinEngine.Validation

open TwinEngine.Binary

def spaceLimit : Nat := 100

def pageLimit : Nat := 65536

def localLimit : Nat := 50000

def limitsOrdered (limits : Limits) : Bool :=
  limits.maximum.all (limits.initial ≤ ·)

def tableNote (context : Context) (note : TableNote) : Option TableNote := do
  let element ← context.space.refType note.element
  ensure (limitsOrdered note.limits && note.limits.initial ≤ Reader.tableSizeLimit)
  return ⟨element, note.limits⟩

def memoryNote (note : MemoryNote) : Option MemoryNote := do
  ensure (limitsOrdered note.limits && note.limits.initial ≤ pageLimit &&
    note.limits.maximum.all (· ≤ pageLimit))
  return note

def globalNote (context : Context) (note : GlobalNote) : Option GlobalNote := do
  return ⟨← context.space.valType note.type, note.isMutable⟩

def isFunctionType (context : Context) (typeIndex : Nat) : Bool :=
  (context.space.signature typeIndex).isSome

def isTagType (context : Context) (typeIndex : Nat) : Bool :=
  (context.space.signature typeIndex).any (·.results.isEmpty)

def addFunction (context : Context) (typeIndex : Nat) : Option Context := do
  ensure (isFunctionType context typeIndex)
  return { context with functions := context.functions.push typeIndex }

def addTag (context : Context) (typeIndex : Nat) : Option Context := do
  ensure (isTagType context typeIndex)
  return { context with tags := context.tags.push typeIndex }

def addMemory (context : Context) (note : MemoryNote) : Option Context := do
  ensure (context.memories.size < spaceLimit)
  return { context with memories := context.memories.push (← memoryNote note) }

def addTableNote (context : Context) (note : TableNote) : Option Context := do
  ensure (context.tables.size < spaceLimit)
  return { context with tables := context.tables.push note }

def addImport (context : Context) (entry : ImportEntry) : Option Context :=
  match entry.note with
  | .func typeIndex => addFunction context typeIndex
  | .table note => do addTableNote context (← tableNote context note)
  | .memory note => addMemory context note
  | .global note => do
      return { context with globals := context.globals.push (← globalNote context note) }
  | .tag typeIndex => addTag context typeIndex

/-- Add a table. Its entries start as null unless an expression says otherwise. -/
def addTable (context : Context) (entry : TableEntry) : Option Context := do
  let note ← tableNote context entry.note
  ensure (match entry.init with
    | some init => constantTyped context (.ref note.element) init
    | none => note.element.nullable)
  addTableNote context note

/-- Add a global, whose expression sees the globals before it. -/
def addGlobal (context : Context) (entry : GlobalEntry) : Option Context := do
  let note ← globalNote context entry.note
  ensure (constantTyped context note.type entry.init)
  return { context with globals := context.globals.push note }

def hasEntity (context : Context) (kind : EntityKind) (index : Nat) : Bool :=
  match kind with
  | .func => index < context.functions.size
  | .table => index < context.tables.size
  | .memory => index < context.memories.size
  | .global => index < context.globals.size
  | .tag => index < context.tags.size

def definitionSize (context : Context) (typeIndex : Nat) : Nat :=
  match context.space.compositeAt typeIndex with
  | some (.func signature) => 2 + signature.params.length + signature.results.length
  | _ => 1

/-- What a thing that is imported or exported adds to the size of a module's type. -/
def importSize (context : Context) (entry : ImportEntry) : Nat :=
  match entry.note with
  | .func typeIndex | .tag typeIndex => definitionSize context typeIndex
  | .table _ | .memory _ | .global _ => 1

@[inherit_doc importSize]
def exportSize (context : Context) (entry : ExportEntry) : Nat :=
  match entry.kind with
  | .func => (context.functions[entry.index]?).elim 1 (definitionSize context)
  | .tag => (context.tags[entry.index]?).elim 1 (definitionSize context)
  | .table | .memory | .global => 1

def moduleSize (context : Context) (sections : Sections) : Nat :=
  1 + (sections.imports.map (importSize context)).sum +
    (sections.exports.map (exportSize context)).sum

def moduleSizeLimit : Nat := 1000000

def neighboursDiffer : List String → Bool
  | first :: second :: rest => first != second && neighboursDiffer (second :: rest)
  | _ => true

def namesDistinct (names : List String) : Bool :=
  neighboursDiffer (names.mergeSort fun left right => left ≤ right)

def exportsValid (context : Context) (exports : List ExportEntry) : Bool :=
  exports.all (fun entry => hasEntity context entry.kind entry.index) &&
    namesDistinct (exports.map ExportEntry.name)

def startValid (context : Context) (function : Nat) : Bool :=
  context.functionSignature function == some ⟨[], []⟩

def elementType (context : Context) : ElementItems → Option RefType
  | .functions indices => do
      ensure (indices.all (· < context.functions.size))
      return ⟨false, .basic .func⟩
  | .expressions type items => do
      let type ← context.space.refType type
      ensure (items.all (constantTyped context (.ref type)))
      return type

def addElement (context : Context) (entry : ElementEntry) : Option Context := do
  let type ← elementType context entry.items
  ensure (match entry.place with
    | .passive | .declared => true
    | .active table offset =>
      match context.tables[table]? with
      | some note =>
        context.space.refWithin type note.element && constantTyped context .i32 offset
      | none => false)
  return { context with elements := context.elements.push type }

def dataValid (context : Context) (entry : DataEntry) : Bool :=
  match entry.place with
  | none => true
  | some (memory, offset) =>
    memory < context.memories.size && constantTyped context .i32 offset

/-- The functions that the expressions, exports and segments of a module name. -/
def declaredFunctions (sections : Sections) : List Nat :=
  sections.tables.flatMap (fun entry => (entry.init.map functionsNamed).getD []) ++
    sections.globals.flatMap (fun entry => functionsNamed entry.init) ++
    sections.exports.filterMap (fun entry =>
      if entry.kind = .func then some entry.index else none) ++
    sections.elements.flatMap fun entry =>
      match entry.items with
      | .functions indices => indices
      | .expressions _ items => items.flatMap functionsNamed

/-- The locals of a body, one by one, if there are not too many and their types are valid. -/
def expandLocals (context : Context) (params : List ValType) (runs : List (Nat × ValType)) :
    Option (List ValType) := do
  ensure (params.length + (runs.map (·.1)).sum ≤ localLimit)
  let runs ← runs.mapM fun (count, type) => (context.space.valType type).map (List.replicate count)
  return runs.flatten

def codeValid (context : Context) (typeIndex : Nat) (entry : CodeEntry) : Bool :=
  match context.space.signature typeIndex with
  | none => false
  | some signature =>
    match expandLocals context signature.params entry.locals with
    | none => false
    | some locals =>
      bodyTyped
        { context with
          locals := (signature.params ++ locals).toArray
          paramCount := signature.params.length }
        signature.results entry.operators

/-- What the code of a module may refer to, if everything before the code is valid. The module's
type definitions join those that are stored. -/
def contextOf (stored : TypeSpace) (sections : Sections) : Option Context := do
  let space ← sections.types.foldlM TypeSpace.addGroup stored.fresh
  let context ← sections.imports.foldlM addImport { space }
  let context ← sections.functions.foldlM addFunction context
  let context ← sections.tables.foldlM addTable context
  let context ← sections.memories.foldlM addMemory context
  let context ← sections.tags.foldlM addTag context
  let context ← sections.globals.foldlM addGlobal context
  ensure (exportsValid context sections.exports)
  ensure (moduleSize context sections < moduleSizeLimit)
  ensure (sections.start.all (startValid context))
  let context ← sections.elements.foldlM addElement context
  return { context with
    dataCount := sections.dataCount
    referable := some (declaredFunctions sections) }

def contentsValid (context : Context) (sections : Sections) : Bool :=
  TypeSpace.pairwise (codeValid context) sections.functions sections.code &&
    sections.data.all (dataValid context) &&
    sections.dataCount.all (· == sections.data.length)

def checkModule (stored : TypeSpace) (sections : Sections) : Option Context := do
  let context ← contextOf stored sections
  ensure (contentsValid context sections)
  return context

def sectionsValid (sections : Sections) : Bool := (checkModule {} sections).isSome

end TwinEngine.Validation
