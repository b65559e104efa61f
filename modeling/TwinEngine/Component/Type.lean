import TwinEngine.Component.Note
import TwinEngine.Validation.TypeSpace

/-!
Contract: the types of what components hold.

Owns: resources, value and function types, the types of modules, instances and components, their
sizes, the resources that a type leaves open, and the types that it has to name.

Does not own: when a type can stand for another (`Component.Subtyping`).

A definition is known by its number, and refers only to definitions with lower numbers. Two
definitions that say the same are still two: whether a type has been imported or exported is a
matter of its number.
-/

namespace TwinEngine.Component

open TwinEngine.Binary

/-- A resource, under one of the names that were given to it. -/
structure Resource where
  id : Nat
  label : Nat
deriving DecidableEq, Repr

inductive ValueType where
  | primitive (type : PrimitiveType)
  | defined (number : Nat)
deriving DecidableEq, Repr

inductive DefinedType where
  | primitive (type : PrimitiveType)
  | record (fields : List (String × ValueType))
  | variant (cases : List (String × Option ValueType))
  | list (item : ValueType)
  | tuple (items : List ValueType)
  | flags (names : List String)
  | enumeration (names : List String)
  | option (item : ValueType)
  | result (success failure : Option ValueType)
  | own (resource : Resource)
  | borrow (resource : Resource)
deriving DecidableEq, Repr

structure Callable where
  params : List (String × ValueType)
  results : List (Option String × ValueType)
deriving DecidableEq, Repr

/-- Something that a core module imports or exports. Functions and tags have the numbers of their
types. -/
inductive CoreEntity where
  | func (type : Nat)
  | table (note : TableNote)
  | memory (note : MemoryNote)
  | global (note : GlobalNote)
  | tag (type : Nat)
deriving DecidableEq, Repr

structure ModuleType where
  imports : List ((String × String) × CoreEntity)
  exports : List (String × CoreEntity)
  size : Nat
deriving DecidableEq, Repr

inductive AnyType where
  | resource (resource : Resource)
  | defined (number : Nat)
  | func (number : Nat)
  | component (number : Nat)
  | instantiated (number : Nat)
deriving DecidableEq, Repr

/-- Something that a component imports or exports. A type that is passed on becomes a type of its
own: `created` is what the new name means, `referenced` what it was before. -/
inductive Entity where
  | coreModule (type : ModuleType)
  | func (number : Nat)
  | type (referenced created : AnyType)
  | component (number : Nat)
  | instantiated (number : Nat)
deriving DecidableEq, Repr

/-- Where a resource is found: the place of an import or export, then places inside instances. -/
abbrev ResourcePath := List Nat

/-- The type of an instance. `defined` holds the resources that belong to the type itself. -/
structure InstanceType where
  defined : List Nat
  explicit : List (Nat × ResourcePath)
  exports : List (String × Entity)
deriving DecidableEq, Repr

/-- The type of a component, with the resources that come in with its imports and those that come
into being with an instance. -/
structure ComponentType where
  imports : List (String × Entity)
  exports : List (String × Entity)
  imported : List (Nat × ResourcePath)
  defined : List (Nat × ResourcePath)
  explicit : List (Nat × ResourcePath)
deriving DecidableEq, Repr

inductive Definition where
  | value (type : DefinedType)
  | func (type : Callable)
  | component (type : ComponentType)
  | instantiated (type : InstanceType)
deriving DecidableEq, Repr

/-! ## Sizes -/

/-- How large a type is when it is written out, and whether a borrowed resource occurs in it. -/
structure Extent where
  size : Nat := 1
  borrows : Bool := false
deriving DecidableEq, Repr

namespace Extent

def limit : Nat := 1000000

def combine (left right : Extent) : Option Extent :=
  if left.size + right.size < limit then
    some ⟨left.size + right.size, left.borrows || right.borrows⟩
  else none

def ofParts (parts : List Extent) : Option Extent := parts.foldlM combine {}

end Extent

/-- All definitions so far with their extents. `fresh` is above the number of every resource and of
every name of one. -/
structure Arena where
  definitions : Array (Definition × Extent) := #[]
  fresh : Nat := 0
deriving Repr

namespace Arena

def definition? (arena : Arena) (number : Nat) : Option Definition :=
  (arena.definitions[number]?).map (·.1)

def defined? (arena : Arena) (number : Nat) : Option DefinedType :=
  match arena.definition? number with
  | some (.value type) => some type
  | _ => none

def callable? (arena : Arena) (number : Nat) : Option Callable :=
  match arena.definition? number with
  | some (.func type) => some type
  | _ => none

def component? (arena : Arena) (number : Nat) : Option ComponentType :=
  match arena.definition? number with
  | some (.component type) => some type
  | _ => none

def instance? (arena : Arena) (number : Nat) : Option InstanceType :=
  match arena.definition? number with
  | some (.instantiated type) => some type
  | _ => none

def add (arena : Arena) (definition : Definition) (extent : Extent) : Nat × Arena :=
  (arena.definitions.size,
    { arena with definitions := arena.definitions.push (definition, extent) })

def extentAt (arena : Arena) (number : Nat) : Extent :=
  ((arena.definitions[number]?).map (·.2)).getD {}

def valueExtent (arena : Arena) : ValueType → Extent
  | .primitive _ => {}
  | .defined number => arena.extentAt number

def anyExtent (arena : Arena) : AnyType → Extent
  | .resource _ => {}
  | .defined number | .func number | .component number | .instantiated number =>
    arena.extentAt number

def entityExtent (arena : Arena) : Entity → Extent
  | .coreModule type => { size := type.size }
  | .func number | .component number | .instantiated number => arena.extentAt number
  | .type referenced _ => arena.anyExtent referenced

end Arena

def coreExtent (space : TypeSpace) : CoreEntity → Extent
  | .func type | .tag type =>
    match space.composite type with
    | some (.func signature) =>
      { size := 2 + signature.params.length + signature.results.length }
    | _ => {}
  | .table _ | .memory _ | .global _ => {}

/-! ## References -/

namespace ValueType

def references : ValueType → List AnyType
  | .primitive _ => []
  | .defined number => [.defined number]

end ValueType

namespace DefinedType

def parts : DefinedType → List ValueType
  | .primitive _ | .flags _ | .enumeration _ | .own _ | .borrow _ => []
  | .record fields => fields.map (·.2)
  | .variant cases => cases.filterMap (·.2)
  | .list item | .option item => [item]
  | .tuple items => items
  | .result success failure => success.toList ++ failure.toList

def resource? : DefinedType → Option Resource
  | .own resource | .borrow resource => some resource
  | _ => none

end DefinedType

namespace Callable

def parts (type : Callable) : List ValueType :=
  type.params.map (·.2) ++ type.results.map (·.2)

end Callable

namespace Entity

/-- The type of what is imported or exported. A core module has none that matters here. -/
def anyType? : Entity → Option AnyType
  | .coreModule _ => none
  | .func number => some (.func number)
  | .type _ created => some created
  | .component number => some (.component number)
  | .instantiated number => some (.instantiated number)

end Entity

namespace Definition

def references : Definition → List AnyType
  | .value type => type.parts.flatMap ValueType.references ++ type.resource?.toList.map .resource
  | .func type => type.parts.flatMap ValueType.references
  | .component type => (type.imports ++ type.exports).filterMap fun entry => entry.2.anyType?
  | .instantiated type => type.exports.filterMap fun entry => entry.2.anyType?

def bound : Definition → List Nat
  | .value _ | .func _ => []
  | .component type => type.imported.map (·.1) ++ type.defined.map (·.1)
  | .instantiated type => type.defined

end Definition

namespace Arena

/-- More than the longest chain of definitions that refer to each other. -/
def depth (arena : Arena) : Nat := arena.definitions.size + 1

def openWithin (arena : Arena) : Nat → AnyType → List Nat
  | 0, _ => []
  | _ + 1, .resource resource => [resource.id]
  | fuel + 1, .defined number | fuel + 1, .func number | fuel + 1, .component number
  | fuel + 1, .instantiated number =>
    match arena.definition? number with
    | none => []
    | some definition =>
      (definition.references.flatMap (openWithin arena fuel)).filter
        (!definition.bound.contains ·)

def openResources (arena : Arena) (type : AnyType) : List Nat :=
  arena.openWithin arena.depth type

def openOfEntities (arena : Arena) (entities : List (String × Entity)) : List Nat :=
  entities.flatMap fun entry => (entry.2.anyType?.map arena.openResources).getD []

/-! ## Types that have to be named

A record, a variant, flags and an enumeration can be used in an import or export only if they have
been imported or exported themselves, and a handle only if its resource has.
-/

def isNamedWithin (arena : Arena) (named : List AnyType) : Nat → ValueType → Bool
  | _, .primitive _ => true
  | 0, .defined _ => false
  | fuel + 1, .defined number =>
    match arena.defined? number with
    | some (.primitive _) => true
    | some (.list item) | some (.option item) => isNamedWithin arena named fuel item
    | some (.tuple items) => items.all (isNamedWithin arena named fuel)
    | some (.result success failure) =>
      success.all (isNamedWithin arena named fuel) &&
        failure.all (isNamedWithin arena named fuel)
    | some (.own resource) | some (.borrow resource) => named.contains (.resource resource)
    | some (.record _) | some (.variant _) | some (.flags _) | some (.enumeration _) =>
      named.contains (.defined number)
    | none => false

def isNamed (arena : Arena) (named : List AnyType) (type : ValueType) : Bool :=
  arena.isNamedWithin named arena.depth type

def namesDefined (arena : Arena) (named : List AnyType) (number : Nat) : Bool :=
  match arena.defined? number with
  | some type =>
    type.parts.all (arena.isNamed named) &&
      type.resource?.all fun resource => named.contains (.resource resource)
  | none => false

def namesCallable (arena : Arena) (named : List AnyType) (number : Nat) : Bool :=
  match arena.callable? number with
  | some type => type.parts.all (arena.isNamed named)
  | none => false

/-- Whether everything in a type is named, down to the given depth. Resources and component types
stand for themselves. -/
def namesAllWithin (arena : Arena) (named : List AnyType) : Nat → AnyType → Bool
  | _, .resource _ | _, .component _ => true
  | _, .defined number => arena.namesDefined named number
  | _, .func number => arena.namesCallable named number
  | 0, .instantiated _ => false
  | fuel + 1, .instantiated number =>
    match arena.instance? number with
    | some type =>
      type.exports.all fun entry =>
        entry.2.anyType?.all (namesAllWithin arena named fuel)
    | none => false

def namesAll (arena : Arena) (named : List AnyType) (type : AnyType) : Bool :=
  arena.namesAllWithin named arena.depth type

end Arena

end TwinEngine.Component
