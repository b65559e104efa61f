import TwinEngine.Component.Type

/-!
Contract: putting some types in the place of others.

Owns: substitutions for resources and types, and what they do to a type.

A type in which nothing is replaced stays the type that it is. Any other becomes a new one, and
wherever the old one occurs again it is that same new one.
-/

namespace TwinEngine.Component

/-- New resources for old, and new types for old. -/
structure Substitution where
  resources : List (Nat × Nat) := []
  types : List (AnyType × AnyType) := []
deriving Repr

namespace Substitution

def resourceId (substitution : Substitution) (id : Nat) : Nat :=
  (substitution.resources.lookup id).getD id

def resource (substitution : Substitution) (resource : Resource) : AnyType :=
  match substitution.types.lookup (.resource resource) with
  | some type => type
  | none => .resource { resource with id := substitution.resourceId resource.id }

def paths (substitution : Substitution) (entries : List (Nat × ResourcePath)) :
    List (Nat × ResourcePath) :=
  entries.map fun (id, path) => (substitution.resourceId id, path)

end Substitution

variable {m : Type → Type} [Monad m]

namespace AnyType

def definedOr (standIn : Nat) : AnyType → Nat
  | .defined number => number
  | _ => standIn

def funcOr (standIn : Nat) : AnyType → Nat
  | .func number => number
  | _ => standIn

def componentOr (standIn : Nat) : AnyType → Nat
  | .component number => number
  | _ => standIn

def instantiatedOr (standIn : Nat) : AnyType → Nat
  | .instantiated number => number
  | _ => standIn

def resourceOr (standIn : Resource) : AnyType → Resource
  | .resource handle => handle
  | _ => standIn

end AnyType

def ValueType.mapTypes (change : AnyType → m AnyType) : ValueType → m ValueType
  | .primitive type => pure (.primitive type)
  | .defined number => do return .defined ((← change (.defined number)).definedOr number)

def optionalType (change : AnyType → m AnyType) : Option ValueType → m (Option ValueType)
  | none => pure none
  | some type => do return some (← type.mapTypes change)

def DefinedType.mapTypes (change : AnyType → m AnyType) : DefinedType → m DefinedType
  | .record fields => do
      return .record (← fields.mapM fun (name, type) => do return (name, ← type.mapTypes change))
  | .variant cases => do
      return .variant (← cases.mapM fun (name, type) => do
        return (name, ← optionalType change type))
  | .list item => do return .list (← item.mapTypes change)
  | .tuple items => do return .tuple (← items.mapM (ValueType.mapTypes change))
  | .option item => do return .option (← item.mapTypes change)
  | .result success failure => do
      let success ← optionalType change success
      return .result success (← optionalType change failure)
  | .own resource => do return .own ((← change (.resource resource)).resourceOr resource)
  | .borrow resource => do return .borrow ((← change (.resource resource)).resourceOr resource)
  | type => pure type

def Entity.mapTypes (change : AnyType → m AnyType) : Entity → m Entity
  | .coreModule note => pure (.coreModule note)
  | .func number => do return .func ((← change (.func number)).funcOr number)
  | .type referenced created => do
      let renamed ← change referenced
      return .type renamed (← if created = referenced then pure renamed else change created)
  | .component number => do
      return .component ((← change (.component number)).componentOr number)
  | .instantiated number => do
      return .instantiated ((← change (.instantiated number)).instantiatedOr number)

def mapEntities (change : AnyType → m AnyType) (entities : List (String × Entity)) :
    m (List (String × Entity)) :=
  entities.mapM fun (name, entity) => do return (name, ← entity.mapTypes change)

def Definition.mapTypes (substitution : Substitution) (change : AnyType → m AnyType) :
    Definition → m Definition
  | .value type => do return .value (← type.mapTypes change)
  | .func type => do
      let params ← type.params.mapM fun (name, type) => do return (name, ← type.mapTypes change)
      let results ← type.results.mapM fun (name, type) => do return (name, ← type.mapTypes change)
      return .func ⟨params, results⟩
  | .component type => do
      let imports ← mapEntities change type.imports
      let exports ← mapEntities change type.exports
      return .component ⟨imports, exports, substitution.paths type.imported,
        substitution.paths type.defined, substitution.paths type.explicit⟩
  | .instantiated type => do
      let exports ← mapEntities change type.exports
      return .instantiated ⟨type.defined.map substitution.resourceId,
        substitution.paths type.explicit, exports⟩

/-- Computations that may add definitions and remember what became of a type. -/
abbrev Renamed := StateM (Arena × Substitution)

def renameWithin : Nat → AnyType → Renamed AnyType
  | _, .resource resource => do return (← get).2.resource resource
  | 0, type => pure type
  | fuel + 1, type => do
      let (arena, substitution) ← get
      match substitution.types.lookup type with
      | some known => return known
      | none =>
        match numberOf type, (numberOf type).bind arena.definition? with
        | some number, some definition => do
            let changed ← definition.mapTypes substitution (renameWithin fuel)
            if changed = definition then
              remember type type
            else
              let (arena, substitution) ← get
              let (place, arena) := arena.add changed (arena.extentAt number)
              set (arena, substitution)
              remember type (withNumber type place)
        | _, _ => return type
where
  numberOf : AnyType → Option Nat
    | .resource _ => none
    | .defined number | .func number | .component number | .instantiated number => some number
  withNumber : AnyType → Nat → AnyType
    | .resource resource, _ => .resource resource
    | .defined _, number => .defined number
    | .func _, number => .func number
    | .component _, number => .component number
    | .instantiated _, number => .instantiated number
  remember (type renamed : AnyType) : Renamed AnyType := do
    modify fun (arena, substitution) =>
      (arena, { substitution with types := (type, renamed) :: substitution.types })
    return renamed

namespace Arena

def renameEntities (arena : Arena) (substitution : Substitution)
    (entities : List (String × Entity)) : List (String × Entity) × Arena :=
  let (entities, arena, _) :=
    (mapEntities (renameWithin arena.depth) entities).run (arena, substitution)
  (entities, arena)

def renameEntity (arena : Arena) (substitution : Substitution) (entity : Entity) : Entity × Arena :=
  let (entity, arena, _) := (entity.mapTypes (renameWithin arena.depth)).run (arena, substitution)
  (entity, arena)

end Arena

end TwinEngine.Component
