import TwinEngine.Component.Flat
import TwinEngine.Component.Declaration

/-!
Contract: the rules for a whole component.

Owns: which items make a valid component: modules and components inside it, instances, functions
that cross between it and its core code, imports and exports.

The items are checked in their order, and each sees what stands before it.
-/

namespace TwinEngine.Component

open TwinEngine.Binary TwinEngine.Validation

namespace Check

/-! ## Core modules -/

def exportedEntity (context : Context) (entry : ExportEntry) : Option (String × CoreEntity) := do
  let typed (typeIndex : Nat) := context.space.indices[typeIndex]?
  let entity ← match entry.kind with
    | .func => ((context.functions[entry.index]?).bind typed).map .func
    | .table => (context.tables[entry.index]?).map .table
    | .memory => (context.memories[entry.index]?).map .memory
    | .global => (context.globals[entry.index]?).map .global
    | .tag => ((context.tags[entry.index]?).bind typed).map .tag
  return (entry.name, entity)

/-- Add a module. Inside a component, no two of its imports have the same names. -/
def addModule (sections : Sections) : Check Unit := do
  let context ← given (checkModule (← get).space sections)
  let imports ← given (sections.imports.mapM fun entry => do
    return ((entry.moduleName, entry.name), ← coreDescribedBy context entry.note))
  let exports ← given (sections.exports.mapM (exportedEntity context))
  let type ← given (moduleTypeOf context.space imports exports)
  modify fun progress => { progress with space := context.space.fresh }
  update fun scope => { scope with coreModules := scope.coreModules.push type }

def coreInstance : CoreInstanceNote → Check (List (String × CoreEntity))
  | .instantiate index arguments => do
      let progress ← get
      let type ← given progress.scope.coreModules[index]?
      require (namesDistinct (arguments.map (·.1)))
      let given ← arguments.mapM fun (name, index) => do
        return (name, ← Check.given progress.scope.coreInstances[index]?)
      require (type.imports.all fun ((moduleName, name), expected) =>
        (((given.lookup moduleName).bind (·.lookup name)).any
          (coreWithin progress.space · expected)))
      return type.exports
  | .exports entries => do
      let progress ← get
      let exports ← entries.mapM fun entry => do
        return (entry.name, ← Check.given (progress.scope.coreEntity? entry.kind entry.index))
      require (namesDistinct (exports.map (·.1)))
      let _ ← Check.given
        (Extent.ofParts (exports.map fun entry => coreExtent progress.space entry.2))
      return exports

/-! ## Instances -/

/-- Instantiate a component: its resources come into being anew. -/
def instantiate (index : Nat) (arguments : List NamedItem) : Check Nat := do
  let progress ← get
  let type ← given (progress.scope.components[index]?.bind progress.arena.component?)
  require (namesDistinct (arguments.map (·.name)))
  let actual ← arguments.mapM fun item => do
    return (item.name, ← given (progress.scope.entity? item.kind item.index))
  let extent ← given
    (Extent.ofParts (type.exports.map fun entry => progress.arena.entityExtent entry.2))
  let substitution ← given (progress.arena.arguments progress.space actual type)
  let created ← type.defined.mapM fun (old, _) => do return (old, (← freshResource).id)
  let substitution := { substitution with resources := created ++ substitution.resources }
  let exports ← rename substitution type.exports
  update fun scope =>
    { scope with defined := scope.defined ++ created.map fun entry => (entry.2, false) }
  define (.instantiated ⟨[], substitution.paths type.explicit, exports⟩) extent

def explicitAt (arena : Arena) (place : Nat) : Entity → List (Nat × ResourcePath)
  | .instantiated number =>
    ((arena.instance? number).map (·.explicit)).getD [] |>.map fun (id, path) =>
      (id, place :: path)
  | .type _ (.resource resource) => [(resource.id, [place])]
  | _ => []

def bundle (items : List NamedItem) : Check Nat := do
  let progress ← get
  let step (state : Passage × Extent × List (Nat × ResourcePath)) (item : NamedItem) :
      Option (Passage × Extent × List (Nat × ResourcePath)) := do
    let (passage, extent, explicit) := state
    let entity ← progress.scope.entity? item.kind item.index
    let found := explicitAt progress.arena passage.entries.length entity
    let (passage, extent) ←
      passage.letThrough progress.arena .outward extent item.name entity
    return (passage, extent, found.foldl (fun known (id, path) =>
      Scope.notePath known id path) explicit)
  let (passage, extent, explicit) ← given (items.foldlM step ({}, {}, []))
  define (.instantiated ⟨[], explicit, passage.entries⟩) extent

def addInstance (note : InstanceNote) : Check Unit := do
  let number ← match note with
    | .instantiate index arguments => instantiate index arguments
    | .exports items => bundle items
  update (·.push (.instantiated number))

/-! ## Crossing functions -/

structure Provision where
  encoding : Bool := false
  memory : Bool := false
  allocator : Bool := false
  afterReturn : Bool := false

/-- The signature of a function that allocates: what there was and its size, the alignment, and the
new size. -/
def allocatorSignature : Signature := ⟨[.i32, .i32, .i32, .i32], [.i32]⟩

/-- Take an option into account. None is given twice. A function that cleans up takes the results of
the core function, and there is one only where core code is offered to the component. -/
def addOption (core : Option Signature) (provision : Provision) :
    CanonicalOption → Check Provision
  | .encoding => do
      require (!provision.encoding)
      return { provision with encoding := true }
  | .memory index => do
      require (!provision.memory && index < (← scope).coreMemories.size)
      return { provision with memory := true }
  | .allocator function => do
      require (!provision.allocator && (← coreSignature function) = allocatorSignature)
      return { provision with allocator := true }
  | .afterReturn function => do
      let core ← given core
      require (!provision.afterReturn && (← coreSignature function) = ⟨core.results, []⟩)
      return { provision with afterReturn := true }

def checkOptions (core : Option Signature) (type : CrossingType)
    (options : List CanonicalOption) : Check Unit := do
  let provision ← options.foldlM (addOption core) {}
  require ((provision.memory || !type.needsMemory) &&
    (provision.allocator || !type.needsAllocator))

def addCoreFunction (signature : Signature) : Check Unit := do
  let number ← coreFunctionType signature
  update (·.pushCore (.func number))

/-- Require that a type index is that of a resource whose representation this component gives. -/
def requireOwn (index : Nat) : Check Unit := do
  let resource ← resourceAt index
  require ((← scope).defined.lookup resource.id == some true)

def addCrossing : CanonicalNote → Check Unit
  | .lift function options typeIndex => do
      let progress ← get
      let number ← match progress.scope.types[typeIndex]? with
        | some (.func number) => pure number
        | _ => failure
      let callable ← given (progress.arena.callable? number)
      let core ← coreSignature function
      let type := progress.arena.crossingType .lift callable
      checkOptions (some core) type options
      require (core = type.signature)
      update (·.push (.func number))
  | .lower function options => do
      let progress ← get
      let callable ← given (progress.scope.functions[function]?.bind progress.arena.callable?)
      let type := progress.arena.crossingType .lower callable
      checkOptions none type options
      addCoreFunction type.signature
  | .resourceNew index => do
      requireOwn index
      addCoreFunction ⟨[.i32], [.i32]⟩
  | .resourceDrop index => do
      let _ ← resourceAt index
      addCoreFunction ⟨[.i32], []⟩
  | .resourceRepresentation index => do
      requireOwn index
      addCoreFunction ⟨[.i32], [.i32]⟩

/-! ## Items -/

def addExport (item : NamedItem) (note : Option ExternNote) : Check Unit := do
  let entity ← given ((← scope).entity? item.kind item.index)
  let actual ← match entity with
    | .type referenced _ => do pure (Entity.type referenced (← freshCopy referenced))
    | entity => pure entity
  match note with
  | none => pass .outward item.name actual
  | some note => do
      let described ← describedBy note
      require (← accepts actual described)
      pass .outward item.name described

mutual

def addItem : Item → Check Unit
  | .coreModule sections => addModule sections
  | .component items => do
      let (_, scope) ← inside .component (addItems items)
      let number ← defineComponent scope
      update (·.push (.component number))
  | .coreInstance note => do
      let exports ← coreInstance note
      update fun scope => { scope with coreInstances := scope.coreInstances.push exports }
  | .coreType note => defineCoreType note
  | .instantiated note => addInstance note
  | .alias note => takePart note
  | .type note => defineType note
  | .canonical note => addCrossing note
  | .imported name note => receive name note
  | .exported item note => addExport item note
  | .names _ => return ()

def addItems : List Item → Check Unit
  | [] => return ()
  | first :: rest => do
      addItem first
      addItems rest

end

end Check

def itemsValid (items : List Item) : Bool :=
  match (Check.addItems items).run {} with
  | some (_, progress) => (progress.scope.componentType progress.arena).isSome
  | none => false

end TwinEngine.Component
