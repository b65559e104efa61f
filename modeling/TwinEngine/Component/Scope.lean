import TwinEngine.Component.Name
import TwinEngine.Component.Substitution
import TwinEngine.Validation.Module

/-!
Contract: what a component has so far, while it is checked.

Owns: the index spaces of a component or of the type of one, its imports and exports, the resources
that it deals with, and the state that all scopes share.

Does not own: which items may be added (`Component.Extern`, `Component.Declaration`,
`Component.Validation`).
-/

namespace TwinEngine.Component

open TwinEngine.Binary TwinEngine.Validation

/-- A scope is that of a component, or that of the type of a component or an instance. -/
inductive ScopeKind where
  | component
  | componentType
  | instanceType
deriving DecidableEq, Repr

/-- Things come in by imports and go out by exports. -/
inductive Direction where
  | inward
  | outward
deriving DecidableEq, Repr

/-- A core type: a definition, by its number, or the type of a module. -/
inductive CoreType where
  | definition (number : Nat)
  | coreModule (type : ModuleType)
deriving DecidableEq, Repr

/-- What has passed in one direction: the entries by name, the keys of their names, the resources
among them, and the types that may occur in what passes. -/
structure Passage where
  entries : List (String × Entity) := []
  keys : List (Nat × String) := []
  resources : List (Resource × String) := []
  named : List AnyType := []
deriving Repr

/-- A component so far. `imported` tells where resources came in, `defined` which ones came into
being and whether this component gives their representation, and `explicit` where resources are
exported. -/
structure Scope where
  kind : ScopeKind := .component
  coreTypes : Array CoreType := #[]
  coreModules : Array ModuleType := #[]
  coreInstances : Array (List (String × CoreEntity)) := #[]
  coreFunctions : Array Nat := #[]
  coreTables : Array TableNote := #[]
  coreMemories : Array MemoryNote := #[]
  coreGlobals : Array GlobalNote := #[]
  coreTags : Array Nat := #[]
  types : Array AnyType := #[]
  functions : Array Nat := #[]
  instances : Array Nat := #[]
  components : Array Nat := #[]
  imports : Passage := {}
  exports : Passage := {}
  extent : Extent := {}
  imported : List (Nat × ResourcePath) := []
  defined : List (Nat × Bool) := []
  explicit : List (Nat × ResourcePath) := []
deriving Repr

/-! ## Limits -/

def itemLimit : Nat := 1000

def definitionLimit : Nat := 1000000

namespace Scope

def instanceCount (scope : Scope) : Nat := scope.coreInstances.size + scope.instances.size

def typeCount (scope : Scope) : Nat := scope.coreTypes.size + scope.types.size

def functionCount (scope : Scope) : Nat := scope.coreFunctions.size + scope.functions.size

def withinLimits (scope : Scope) : Bool :=
  scope.coreModules.size ≤ itemLimit && scope.components.size ≤ itemLimit &&
    scope.instanceCount ≤ itemLimit && scope.typeCount ≤ definitionLimit &&
    scope.functionCount ≤ definitionLimit && scope.coreTables.size ≤ spaceLimit &&
    scope.coreMemories.size ≤ spaceLimit

def passage (scope : Scope) : Direction → Passage
  | .inward => scope.imports
  | .outward => scope.exports

def withPassage (scope : Scope) (passage : Passage) : Direction → Scope
  | .inward => { scope with imports := passage }
  | .outward => { scope with exports := passage }

def resource? (scope : Scope) (index : Nat) : Option Resource :=
  match scope.types[index]? with
  | some (.resource resource) => some resource
  | _ => none

def coreDefinition? (scope : Scope) (index : Nat) : Option Nat :=
  match scope.coreTypes[index]? with
  | some (.definition number) => some number
  | _ => none

def moduleType? (scope : Scope) (index : Nat) : Option ModuleType :=
  match scope.coreTypes[index]? with
  | some (.coreModule type) => some type
  | _ => none

/-- The core item at an index of its kind. A tag is looked up among the functions. -/
def coreEntity? (scope : Scope) (kind : EntityKind) (index : Nat) : Option CoreEntity :=
  match kind with
  | .func => (scope.coreFunctions[index]?).map .func
  | .table => (scope.coreTables[index]?).map .table
  | .memory => (scope.coreMemories[index]?).map .memory
  | .global => (scope.coreGlobals[index]?).map .global
  | .tag => (scope.coreFunctions[index]?).map .tag

/-- The item at an index of its kind. No component has values of its own. -/
def entity? (scope : Scope) (kind : ItemKind) (index : Nat) : Option Entity :=
  match kind with
  | .coreModule => (scope.coreModules[index]?).map .coreModule
  | .func => (scope.functions[index]?).map .func
  | .value => none
  | .type => (scope.types[index]?).map fun type => .type type type
  | .component => (scope.components[index]?).map .component
  | .instantiated => (scope.instances[index]?).map .instantiated

def pushCore (scope : Scope) : CoreEntity → Scope
  | .func type => { scope with coreFunctions := scope.coreFunctions.push type }
  | .table note => { scope with coreTables := scope.coreTables.push note }
  | .memory note => { scope with coreMemories := scope.coreMemories.push note }
  | .global note => { scope with coreGlobals := scope.coreGlobals.push note }
  | .tag type => { scope with coreTags := scope.coreTags.push type }

def push (scope : Scope) : Entity → Scope
  | .coreModule type => { scope with coreModules := scope.coreModules.push type }
  | .func number => { scope with functions := scope.functions.push number }
  | .type _ created => { scope with types := scope.types.push created }
  | .component number => { scope with components := scope.components.push number }
  | .instantiated number => { scope with instances := scope.instances.push number }

end Scope

/-! ## Checks -/

/-- The state of a check: the types of all scopes, the scope at hand, and those around it, innermost
first. -/
structure Progress where
  arena : Arena := {}
  space : TypeSpace := {}
  scope : Scope := {}
  outer : List Scope := []
deriving Repr

abbrev Check := StateT Progress Option

namespace Check

def require (condition : Bool) : Check Unit := if condition then pure () else failure

def given {α : Type} (value : Option α) : Check α := StateT.lift value

def arena : Check Arena := do return (← get).arena

def scope : Check Scope := do return (← get).scope

/-- Change the scope at hand, which has to keep to the limits. -/
def update (change : Scope → Scope) : Check Unit := do
  let scope := change (← scope)
  require scope.withinLimits
  modify fun progress => { progress with scope }

def define (definition : Definition) (extent : Extent) : Check Nat := do
  let (number, arena) := (← arena).add definition extent
  modify fun progress => { progress with arena }
  return number

def freshResource : Check Resource := do
  let arena ← arena
  modify fun progress => { progress with arena := { arena with fresh := arena.fresh + 1 } }
  return ⟨arena.fresh, arena.fresh⟩

def freshCopy : AnyType → Check AnyType
  | .resource resource => do return .resource ⟨resource.id, (← freshResource).label⟩
  | .defined number => do
      let arena ← arena
      let definition ← given (arena.definition? number)
      return .defined (← define definition (arena.extentAt number))
  | type => pure type

def rename (substitution : Substitution) (entities : List (String × Entity)) :
    Check (List (String × Entity)) := do
  let (entities, arena) := (← arena).renameEntities substitution entities
  modify fun progress => { progress with arena }
  return entities

/-- The number of a core function type that is final and extends nothing. -/
def coreFunctionType (signature : Signature) : Check Nat := do
  let space ← given ((← get).space.fresh.addGroup [⟨true, none, .func signature⟩])
  modify fun progress => { progress with space }
  given space.indices[0]?

def coreSignature (index : Nat) : Check Signature := do
  let number ← given (← scope).coreFunctions[index]?
  match (← get).space.composite number with
  | some (.func signature) => return signature
  | _ => failure

/-- Run a check in a new scope, and give its result and what became of the scope. -/
def inside {α : Type} (kind : ScopeKind) (check : Check α) : Check (α × Scope) := do
  let around ← get
  set { around with scope := { kind }, outer := around.scope :: around.outer }
  let result ← check
  let progress ← get
  set { progress with scope := around.scope, outer := around.outer }
  return (result, progress.scope)

end Check

end TwinEngine.Component
