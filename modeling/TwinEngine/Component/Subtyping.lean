import TwinEngine.Component.Name
import TwinEngine.Component.Substitution

/-!
Contract: when one thing can take the place of another.

Owns: the order of core items, modules, value and function types, instances and components, and the
matching of arguments with what is expected.

Resources that are still open on the expected side are filled in from what is given before anything
else is compared.
-/

namespace TwinEngine.Component

open TwinEngine.Binary

/-! ## Core items -/

def limitsWithin (given expected : Limits) : Bool :=
  expected.initial ≤ given.initial &&
    match given.maximum, expected.maximum with
    | some given, some expected => given ≤ expected
    | none, some _ => false
    | _, none => true

def coreWithin (space : TypeSpace) : CoreEntity → CoreEntity → Bool
  | .func given, .func expected | .tag given, .tag expected =>
    space.extendsFrom TypeSpace.depthLimit given expected
  | .table given, .table expected =>
    given.element == expected.element && limitsWithin given.limits expected.limits
  | .memory given, .memory expected =>
    given.shared == expected.shared && limitsWithin given.limits expected.limits
  | .global given, .global expected => given == expected
  | _, _ => false

/-- Whether a module can be given where another is expected: it imports no more and exports no
less. -/
def moduleWithin (space : TypeSpace) (given expected : ModuleType) : Bool :=
  given.imports.all (fun (name, needed) =>
    (expected.imports.lookup name).any (coreWithin space · needed)) &&
  expected.exports.all fun (name, needed) =>
    (given.exports.lookup name).any (coreWithin space · needed)

/-! ## Values and functions -/

def sameLabel (left right : String) : Bool := folded left.toList == folded right.toList

def sameOptionalLabel : Option String → Option String → Bool
  | none, none => true
  | some left, some right => sameLabel left right
  | _, _ => false

def bothOrNone (agree : ValueType → ValueType → Bool) : Option ValueType → Option ValueType → Bool
  | none, none => true
  | some left, some right => agree left right
  | _, _ => false

namespace Arena

/-- Whether a value type can be given where another is expected, down to the given depth. -/
def valueWithin (arena : Arena) : Nat → ValueType → ValueType → Bool
  | _, .primitive left, .primitive right => left == right
  | _, .primitive left, .defined right => arena.defined? right == some (.primitive left)
  | _, .defined left, .primitive right => arena.defined? left == some (.primitive right)
  | 0, .defined left, .defined right => left == right
  | fuel + 1, .defined left, .defined right =>
    match arena.defined? left, arena.defined? right with
    | some (.record left), some (.record right) =>
      TypeSpace.pairwise (fun left right =>
        sameLabel left.1 right.1 && valueWithin arena fuel left.2 right.2) left right
    | some (.variant left), some (.variant right) =>
      TypeSpace.pairwise (fun left right => sameLabel left.1 right.1 &&
        bothOrNone (valueWithin arena fuel) left.2 right.2) left right
    | some (.list left), some (.list right) | some (.option left), some (.option right) =>
      valueWithin arena fuel left right
    | some (.tuple left), some (.tuple right) =>
      TypeSpace.pairwise (valueWithin arena fuel) left right
    | some (.flags left), some (.flags right)
    | some (.enumeration left), some (.enumeration right) =>
      TypeSpace.pairwise sameLabel left right
    | some (.result leftOk leftError), some (.result rightOk rightError) =>
      bothOrNone (valueWithin arena fuel) leftOk rightOk &&
        bothOrNone (valueWithin arena fuel) leftError rightError
    | some (.own left), some (.own right) | some (.borrow left), some (.borrow right) =>
      left.id == right.id
    | some (.primitive left), some (.primitive right) => left == right
    | _, _ => false

def callableWithin (arena : Arena) (left right : Nat) : Bool :=
  match arena.callable? left, arena.callable? right with
  | some left, some right =>
    TypeSpace.pairwise (fun left right =>
      sameLabel left.1 right.1 && arena.valueWithin arena.depth left.2 right.2)
      left.params right.params &&
    TypeSpace.pairwise (fun left right =>
      sameOptionalLabel left.1 right.1 && arena.valueWithin arena.depth left.2 right.2)
      left.results right.results
  | _, _ => false

/-! ## Matching what is given with what is expected -/

/-- The thing at a path inside an expected thing, and what is given in its place. -/
def follow (arena : Arena) : ResourcePath → Entity → Option Entity → Option Entity
  | [], _, given => given
  | place :: path, .instantiated expected, some (.instantiated given) =>
    match arena.instance? expected, arena.instance? given with
    | some expected, some given =>
      match expected.exports[place]? with
      | some (name, next) => follow arena path next (given.exports.lookup name)
      | none => none
    | _, _ => none
  | _ :: _, _, _ => none

def givenResources (arena : Arena) (given expected : List (String × Entity))
    (unsettled : List (Nat × ResourcePath)) : List (Nat × Nat) :=
  unsettled.filterMap fun (resource, path) =>
    match path with
    | [] => none
    | place :: path =>
      match expected[place]? with
      | none => none
      | some (name, entity) =>
        match arena.follow path entity (given.lookup name) with
        | some (.type _ (.resource actual)) => some (resource, actual.id)
        | _ => none

def givenTypes (arena : Arena) : Nat → Entity → Entity → List (AnyType × AnyType)
  | _, .type _ given, .type _ expected => [(expected, given)]
  | fuel + 1, .instantiated given, .instantiated expected =>
    match arena.instance? given, arena.instance? expected with
    | some given, some expected =>
      expected.exports.flatMap fun (name, entity) =>
        match given.exports.lookup name with
        | some actual => givenTypes arena fuel actual entity
        | none => []
    | _, _ => []
  | _, _, _ => []

/-- Match things with expected ones by name: the resources and types that take the place of expected
ones, if `agree` accepts every pair. -/
def matching (arena : Arena) (agree : Arena → Entity → Entity → Bool)
    (given expected : List (String × Entity)) (unsettled : List (Nat × ResourcePath)) :
    Option Substitution := do
  let resources := arena.givenResources given expected unsettled
  let types ← expected.mapM fun (name, entity) => do
    let actual ← given.lookup name
    let (renamed, inner) := arena.renameEntity { resources } entity
    if agree inner actual renamed then some (arena.givenTypes arena.depth actual entity) else none
  return { resources, types := types.flatten }

mutual

/-- Whether a type can be given where another is expected, down to the given depth. -/
def anyWithin (space : TypeSpace) : Nat → Arena → AnyType → AnyType → Bool
  | 0, _, _, _ => false
  | _ + 1, _, .resource left, .resource right => left.id == right.id
  | _ + 1, arena, .defined left, .defined right =>
    arena.valueWithin arena.depth (.defined left) (.defined right)
  | _ + 1, arena, .func left, .func right => arena.callableWithin left right
  | fuel + 1, arena, .component left, .component right =>
    match arena.component? left, arena.component? right with
    | some left, some right => componentWithin space fuel arena left right
    | _, _ => false
  | fuel + 1, arena, .instantiated left, .instantiated right =>
    match arena.instance? left, arena.instance? right with
    | some left, some right =>
      right.exports.all fun (name, expected) =>
        (left.exports.lookup name).any (entityWithin space fuel arena · expected)
    | _, _ => false
  | _ + 1, _, _, _ => false

/-- Whether a thing can be given where another is expected, down to the given depth. -/
def entityWithin (space : TypeSpace) : Nat → Arena → Entity → Entity → Bool
  | 0, _, _, _ => false
  | _ + 1, _, .coreModule left, .coreModule right => moduleWithin space left right
  | _ + 1, arena, .func left, .func right => arena.callableWithin left right
  | fuel + 1, arena, .type left _, .type right _ => anyWithin space fuel arena left right
  | fuel + 1, arena, .component left, .component right =>
    anyWithin space fuel arena (.component left) (.component right)
  | fuel + 1, arena, .instantiated left, .instantiated right =>
    anyWithin space fuel arena (.instantiated left) (.instantiated right)
  | _ + 1, _, _, _ => false

/-- Whether a component can be given where another is expected: what the other imports is enough for
it, and with that it exports what the other does. -/
def componentWithin (space : TypeSpace) : Nat → Arena → ComponentType → ComponentType → Bool
  | 0, _, _, _ => false
  | fuel + 1, arena, left, right =>
    match arena.matching (entityWithin space fuel) right.imports left.imports left.imported with
    | none => false
    | some substitution =>
      let (exports, arena) := arena.renameEntities substitution left.exports
      (arena.matching (entityWithin space fuel) exports right.exports right.defined).isSome

end

/-- Enough steps to reach every type inside another. A level of types takes three. -/
def nesting (arena : Arena) : Nat := 3 * arena.depth

def accepts (arena : Arena) (space : TypeSpace) (given expected : Entity) : Bool :=
  entityWithin space arena.nesting arena given expected

def arguments (arena : Arena) (space : TypeSpace) (given : List (String × Entity))
    (type : ComponentType) : Option Substitution :=
  arena.matching (entityWithin space arena.nesting) given type.imports type.imported

end Arena

end TwinEngine.Component
