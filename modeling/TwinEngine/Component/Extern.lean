import TwinEngine.Component.Subtyping
import TwinEngine.Component.Scope

/-!
Contract: imports and exports of a component.

Owns: what a name demands of what it names, which types have to be named before something passes,
what becomes of resources that pass, and the type of a component that is complete.

Each instance that passes brings resources of its own, even if its type has passed before.
-/

namespace TwinEngine.Component

open TwinEngine.Binary

/-! ## Names -/

namespace Passage

def isCalled (passage : Passage) (resource : Resource) (name : String) : Bool :=
  passage.resources.lookup resource == some name

/-- Whether an entity may have a name of a form. A builder gives a new resource of its name, a
method takes a borrowed one first, and a static function names a resource that has passed. -/
def allows (passage : Passage) (arena : Arena) (form : ExternName) (entity : Entity) : Bool :=
  let callable? :=
    match entity with
    | .func number => arena.callable? number
    | _ => none
  let defined? : ValueType → Option DefinedType
    | .defined number => arena.defined? number
    | .primitive _ => none
  match form with
  | .builder name =>
    match callable?.map (·.results) with
    | some [(_, result)] =>
      match defined? result with
      | some (.own resource) => passage.isCalled resource name
      | _ => false
    | _ => false
  | .method name _ =>
    match callable?.map (·.params) with
    | some ((first, type) :: _) =>
      match defined? type with
      | some (.borrow resource) => first = "self" && passage.isCalled resource name
      | _ => false
    | _ => false
  | .static name _ => callable?.isSome && passage.resources.any (·.2 = name)
  | .label _ | .interface _ | .dependency _ | .url _ | .digest _ => true

/-- Let an entity pass under a name that is new, and add to the extent of the whole. -/
def letThrough (passage : Passage) (arena : Arena) (direction : Direction) (extent : Extent)
    (name : String) (entity : Entity) : Option (Passage × Extent) := do
  let form ← ExternName.read name
  let extent ← extent.combine (arena.entityExtent entity)
  if (direction = .inward || form.isExportable) && passage.allows arena form entity &&
      !passage.keys.contains form.key && !passage.entries.any (·.1 = name) then
    some ({ passage with
      entries := passage.entries ++ [(name, entity)]
      keys := form.key :: passage.keys }, extent)
  else none

end Passage

/-! ## Named types -/

namespace Scope

/-- Let a type occur in what passes in a direction from now on. What has come in may also go out. -/
def addNamed (scope : Scope) (type : AnyType) : Direction → Scope
  | .inward =>
    { scope with
      imports := { scope.imports with named := type :: scope.imports.named }
      exports := { scope.exports with named := type :: scope.exports.named } }
  | .outward =>
    { scope with exports := { scope.exports with named := type :: scope.exports.named } }

/-- Check that the types in an entity are named, down to the given depth, and note those that it
names. -/
def nameTypes (arena : Arena) (direction : Direction) : Nat → Scope → Entity → Option Scope
  | _, scope, .coreModule _ | _, scope, .component _ => some scope
  | _, scope, .func number =>
    if arena.namesCallable (scope.passage direction).named number then some scope else none
  | _, scope, .type referenced created =>
    if arena.namesAll (scope.passage direction).named referenced then
      some (scope.addNamed created direction)
    else none
  | 0, _, .instantiated _ => none
  | fuel + 1, scope, .instantiated number =>
    match arena.instance? number with
    | some type =>
      type.exports.foldlM (fun scope entry =>
        nameTypes arena direction fuel scope entry.2) scope
    | none => none

def notePath (entries : List (Nat × ResourcePath)) (id : Nat) (path : ResourcePath) :
    List (Nat × ResourcePath) :=
  if entries.any (·.1 = id) then
    entries.map fun entry => if entry.1 = id then (id, path) else entry
  else entries ++ [(id, path)]

end Scope

/-! ## Resources that pass -/

namespace Check

/-- An instance type with resources of its own in place of those that belong to the type, which are
given beside the old ones. -/
def freshInstance (type : InstanceType) : Check (InstanceType × List (Nat × Nat)) := do
  let resources ← type.defined.mapM fun old => do return (old, (← freshResource).id)
  let substitution : Substitution := { resources }
  let exports ← rename substitution type.exports
  return (⟨[], substitution.paths type.explicit, exports⟩, resources)

def receiveInstance (number : Nat) : Check Nat := do
  let arena ← arena
  let type ← given (arena.instance? number)
  if type.defined.isEmpty then return number
  let (fresh, resources) ← freshInstance type
  let place := (← scope).imports.entries.length
  let received ← resources.mapM fun (old, new) => do
    return (new, place :: (← given (type.explicit.lookup old)))
  update fun scope => { scope with imported := scope.imported ++ received }
  define (.instantiated fresh) (arena.extentAt number)

def handOutInstance (number : Nat) : Check Nat := do
  let arena ← arena
  let type ← given (arena.instance? number)
  let (number, type) ← (do
    if type.defined.isEmpty then return (number, type)
    let (fresh, resources) ← freshInstance type
    update fun scope =>
      { scope with defined := scope.defined ++ resources.map fun entry => (entry.2, false) }
    return (← define (.instantiated fresh) (arena.extentAt number), fresh) : Check _)
  update fun scope =>
    let place := scope.exports.entries.length
    { scope with
      explicit := type.explicit.foldl (fun known (id, path) =>
        Scope.notePath known id (place :: path)) scope.explicit }
  return number

/-- Note a resource that passes as a type. It is a new one if the type is not a copy of another. -/
def passResource (direction : Direction) (resource : Resource) (isNew : Bool) : Check Unit :=
  update fun scope =>
    match direction with
    | .inward =>
      if isNew then
        { scope with
          imported := scope.imported ++ [(resource.id, [scope.imports.entries.length])] }
      else scope
    | .outward =>
      let defined := if isNew then scope.defined ++ [(resource.id, false)] else scope.defined
      { scope with
        defined
        explicit := Scope.notePath scope.explicit resource.id [scope.exports.entries.length] }

def passEntity (direction : Direction) : Entity → Check Entity
  | .instantiated number =>
    match direction with
    | .inward => do return .instantiated (← receiveInstance number)
    | .outward => do return .instantiated (← handOutInstance number)
  | .type referenced created => do
      match created with
      | .resource resource => passResource direction resource (created = referenced)
      | _ => pure ()
      return .type referenced created
  | entity => pure entity

def pass (direction : Direction) (name : String) (entity : Entity) : Check Unit := do
  let entity ← passEntity direction entity
  update (·.push entity)
  match entity with
  | .type _ (.resource resource) =>
    update fun scope =>
      let passage := scope.passage direction
      scope.withPassage
        { passage with resources := (resource, name) :: passage.resources } direction
  | _ => pure ()
  let arena ← arena
  let scope ← scope
  let scope ←
    if scope.kind = .instanceType then pure scope
    else given (Scope.nameTypes arena direction arena.depth scope entity)
  let (passage, extent) ← given
    ((scope.passage direction).letThrough arena direction scope.extent name entity)
  update fun _ => { scope.withPassage passage direction with extent }

/-! ## What is said of an import or export -/

def describedBy : ExternNote → Check Entity
  | .coreModule index => do return .coreModule (← given ((← scope).moduleType? index))
  | .func index => do
      match (← scope).types[index]? with
      | some (.func number) => return .func number
      | _ => failure
  | .value _ => failure
  | .sameType index => do
      let referenced ← given (← scope).types[index]?
      return .type referenced (← freshCopy referenced)
  | .resource => do
      let resource ← freshResource
      return .type (.resource resource) (.resource resource)
  | .component index => do
      match (← scope).types[index]? with
      | some (.component number) => return .component number
      | _ => failure
  | .instantiated index => do
      match (← scope).types[index]? with
      | some (.instantiated number) => return .instantiated number
      | _ => failure

def receive (name : String) (note : ExternNote) : Check Unit := do
  pass .inward name (← describedBy note)

def handOut (name : String) (note : ExternNote) : Check Unit := do
  pass .outward name (← describedBy note)

/-- Whether an entity can be given where another is expected, in the state at hand. -/
def accepts (actual expected : Entity) : Check Bool := do
  let progress ← get
  return progress.arena.accepts progress.space actual expected

end Check

/-! ## Complete types -/

/-- The type of a component that is complete. Its own resources stay out of its imports, and those
that occur in its exports are exported themselves. -/
def Scope.componentType (scope : Scope) (arena : Arena) : Option ComponentType := do
  let inward := arena.openOfEntities scope.imports.entries
  let outward := arena.openOfEntities scope.exports.entries
  if scope.defined.any (inward.contains ·.1) then none
  else
    let visible := scope.defined.filter (outward.contains ·.1)
    let defined ← visible.mapM fun (id, _) => (scope.explicit.lookup id).map (id, ·)
    some ⟨scope.imports.entries, scope.exports.entries, scope.imported, defined, scope.explicit⟩

def Scope.instanceType (scope : Scope) : InstanceType :=
  ⟨scope.defined.map (·.1), scope.explicit, scope.exports.entries⟩

end TwinEngine.Component
