import TwinEngine.Component.Extern

/-!
Contract: the types that a component defines.

Owns: which definitions of value types, functions, resources, core types, modules, instances and
components are valid, and what other parts a definition may refer to.
-/

namespace TwinEngine.Component

open TwinEngine.Binary TwinEngine.Validation

def flagLimit : Nat := 32

/-- Whether texts are labels, no two of them the same but for case. -/
def labelsValid (labels : List String) : Bool :=
  labels.all (fun label => isLabel label.toList) &&
    namesDistinct (labels.map fun label => folded label.toList)

/-- Whether each case refines an earlier one, if it refines any. -/
def refinementsValid (cases : List CaseNote) : Bool :=
  cases.zipIdx.all fun (case, place) => case.refines.all (· < place)

namespace Check

/-! ## Core types -/

def coreIndices : Check (Array Nat) := do
  return (← scope).coreTypes.map fun
    | .definition number => number
    | .coreModule _ => 0

def defineCoreGroup (group : List SubType) : Check Unit := do
  let progress ← get
  let start := progress.scope.coreTypes.size
  let target (index : Nat) : Option Nat :=
    if start ≤ index then some index
    else (progress.scope.coreDefinition? index).map fun _ => index
  require (group.mapM (SubType.rename target)).isSome
  let space ← given ({ progress.space with indices := ← coreIndices }.addGroup group)
  modify fun progress => { progress with space := space.fresh }
  update fun scope =>
    { scope with
      coreTypes := scope.coreTypes ++ (space.indices.extract start).map CoreType.definition }

def coreDescribedBy (context : Context) : ImportNote → Option CoreEntity
  | .func typeIndex => do
      ensure (isFunctionType context typeIndex)
      return .func (← context.space.indices[typeIndex]?)
  | .table note => (tableNote context note).map .table
  | .memory note => (memoryNote note).map .memory
  | .global note => (globalNote context note).map .global
  | .tag typeIndex => do
      ensure (isTagType context typeIndex)
      return .tag (← context.space.indices[typeIndex]?)

def importsDistinct (imports : List ((String × String) × CoreEntity)) : Bool :=
  (imports.map (·.1)).Nodup

def moduleTypeOf (space : TypeSpace) (imports : List ((String × String) × CoreEntity))
    (exports : List (String × CoreEntity)) : Option ModuleType :=
  let size := 1 + (imports.map fun entry => (coreExtent space entry.2).size).sum +
    (exports.map fun entry => (coreExtent space entry.2).size).sum
  if importsDistinct imports && namesDistinct (exports.map (·.1)) && size < moduleSizeLimit then
    some ⟨imports, exports, size⟩
  else none

/-- The type of a module so far: what has been declared, its imports and its exports. -/
structure Outline where
  context : Context
  imports : List ((String × String) × CoreEntity) := []
  exports : List (String × CoreEntity) := []

/-- Add a declaration to the type of a module. Types are taken from this type or from the component
around it. -/
def declareInModule (around : Scope) (outline : Outline) : ModuleDeclaration → Option Outline
  | .imported entry => do
      let entity ← coreDescribedBy outline.context entry.note
      let context ← addImport outline.context entry
      return { outline with
        context
        imports := outline.imports ++ [((entry.moduleName, entry.name), entity)] }
  | .types group => do
      let space ← outline.context.space.addGroup group
      return { outline with context := { outline.context with space } }
  | .outerType count index => do
      let space := outline.context.space
      let number ← match count with
        | 0 => space.indices[index]?
        | 1 => around.coreDefinition? index
        | _ => none
      return { outline with
        context := { outline.context with
          space := { space with indices := space.indices.push number } } }
  | .exported name note => do
      let entity ← coreDescribedBy outline.context note
      return { outline with exports := outline.exports ++ [(name, entity)] }

def defineCoreType : CoreTypeNote → Check Unit
  | .types group => defineCoreGroup group
  | .coreModule declarations => do
      let progress ← get
      let outline ← given (declarations.foldlM (declareInModule progress.scope)
        { context := { space := progress.space.fresh } })
      let space := outline.context.space
      let type ← given (moduleTypeOf space outline.imports outline.exports)
      modify fun progress => { progress with space := space.fresh }
      update fun scope => { scope with coreTypes := scope.coreTypes.push (.coreModule type) }

/-! ## Value types -/

def valueType : ValueNote → Check ValueType
  | .primitive type => return .primitive type
  | .index index => do
      match (← scope).types[index]? with
      | some (.defined number) => return .defined number
      | _ => failure

def optionalValueType : Option ValueNote → Check (Option ValueType)
  | none => return none
  | some note => do return some (← valueType note)

def resourceAt (index : Nat) : Check Resource := do given ((← scope).resource? index)

def definedType : DefinedNote → Check DefinedType
  | .primitive type => return .primitive type
  | .record fields => do
      require (!fields.isEmpty && labelsValid (fields.map (·.1)))
      return .record (← fields.mapM fun (name, note) => do return (name, ← valueType note))
  | .variant cases => do
      require (!cases.isEmpty && labelsValid (cases.map (·.name)) && refinementsValid cases)
      return .variant (← cases.mapM fun case => do
        return (case.name, ← optionalValueType case.type))
  | .list item => do return .list (← valueType item)
  | .tuple items => do
      require (!items.isEmpty)
      return .tuple (← items.mapM valueType)
  | .flags names => do
      require (!names.isEmpty && names.length ≤ flagLimit && labelsValid names)
      return .flags names
  | .enumeration names => do
      require (!names.isEmpty && labelsValid names)
      return .enumeration names
  | .option item => do return .option (← valueType item)
  | .result success failure => do
      let success ← optionalValueType success
      return .result success (← optionalValueType failure)
  | .own index => do return .own (← resourceAt index)
  | .borrow index => do return .borrow (← resourceAt index)

def definedExtent (arena : Arena) : DefinedType → Option Extent
  | .primitive _ | .flags _ | .enumeration _ | .own _ => some {}
  | .borrow _ => some { borrows := true }
  | .list item | .option item => some (arena.valueExtent item)
  | .result success failure =>
    let extent (part : Option ValueType) := part.elim {} arena.valueExtent
    (extent success).combine (extent failure)
  | type => Extent.ofParts (type.parts.map arena.valueExtent)

/-- The function type that a note means. Nothing that is borrowed is returned. -/
def callableType (note : CallableNote) : Check Callable := do
  require (labelsValid (note.params.map (·.1)) && labelsValid (note.results.filterMap (·.1)))
  let params ← note.params.mapM fun (name, note) => do return (name, ← valueType note)
  let results ← note.results.mapM fun (name, note) => do return (name, ← valueType note)
  let arena ← arena
  require (results.all fun result => !(arena.valueExtent result.2).borrows)
  return ⟨params, results⟩

/-! ## References to other parts -/

def scopeAt (count : Nat) : Check Scope := do
  let progress ← get
  given (progress.scope :: progress.outer)[count]?

/-- Whether a component of its own begins between here and the scope that lies a number of scopes
outward. -/
def leavesComponent (count : Nat) : Check Bool := do
  if count = 0 then return false
  return (← scopeAt (count - 1)).kind = .component

/-- Make a part of something else a part of the scope at hand. A type that is taken from outside a
component leaves no resource open. -/
def takePart : AliasNote → Check Unit
  | .ofInstance kind index name => do
      let arena ← arena
      let type ← given ((← scope).instances[index]?.bind arena.instance?)
      let entity ← given (type.exports.lookup name)
      require (match kind, entity with
        | .coreModule, .coreModule _ | .func, .func _ | .type, .type .. => true
        | .component, .component _ | .instantiated, .instantiated _ => true
        | _, _ => false)
      update (·.push entity)
  | .ofCoreInstance kind index name => do
      let exports ← given (← scope).coreInstances[index]?
      let entity ← given (exports.lookup name)
      require (match kind, entity with
        | .func, .func _ | .table, .table _ | .memory, .memory _ | .global, .global _ => true
        | .tag, .tag _ => true
        | _, _ => false)
      update (·.pushCore entity)
  | .ofOuter kind count index => do
      let source ← scopeAt count
      match kind with
      | .coreModule =>
        let type ← given source.coreModules[index]?
        update (·.push (.coreModule type))
      | .coreType =>
        let type ← given source.coreTypes[index]?
        update fun scope => { scope with coreTypes := scope.coreTypes.push type }
      | .type =>
        let type ← given source.types[index]?
        require (!(← leavesComponent count) || ((← arena).openResources type).isEmpty)
        update (·.push (.type type type))
      | .component =>
        let number ← given source.components[index]?
        update (·.push (.component number))

/-! ## Definitions -/

/-- Define a resource. Only a component can, since core code of its own holds what the resource
stands for. -/
def defineResource (representation : ValType) (destructor : Option Nat) : Check AnyType := do
  require ((← scope).kind = .component && representation = .i32)
  match destructor with
  | none => pure ()
  | some index => require ((← coreSignature index) = ⟨[.i32], []⟩)
  let resource ← freshResource
  update fun scope => { scope with defined := scope.defined ++ [(resource.id, true)] }
  return .resource resource

/-- Complete the scope of a component, and give its type a number. -/
def defineComponent (scope : Scope) : Check Nat := do
  let type ← given (scope.componentType (← arena))
  define (.component type) scope.extent

mutual

def definition : TypeNote → Check AnyType
  | .defined note => do
      let type ← definedType note
      let extent ← given (definedExtent (← arena) type)
      return .defined (← define (.value type) extent)
  | .func note => do
      let type ← callableType note
      let arena ← arena
      let extent ← given (Extent.ofParts (type.parts.map arena.valueExtent))
      return .func (← define (.func type) extent)
  | .component declarations => do
      let (_, scope) ← inside .componentType (declareAll declarations)
      return .component (← defineComponent scope)
  | .instantiated declarations => do
      let (_, scope) ← inside .instanceType (declareAll declarations)
      return .instantiated (← define (.instantiated scope.instanceType) scope.extent)
  | .resource representation destructor => defineResource representation destructor

/-- Add a part to the type of a component or an instance. An instance imports nothing. -/
def declare : Declaration → Check Unit
  | .coreType note => defineCoreType note
  | .type note => do
      let type ← definition note
      update (·.push (.type type type))
  | .alias note => takePart note
  | .imported name note => do
      require ((← scope).kind ≠ .instanceType)
      receive name note
  | .exported name note => handOut name note

def declareAll : List Declaration → Check Unit
  | [] => return ()
  | first :: rest => do
      declare first
      declareAll rest

end

def defineType (note : TypeNote) : Check Unit := do
  let type ← definition note
  update (·.push (.type type type))

end Check

end TwinEngine.Component
