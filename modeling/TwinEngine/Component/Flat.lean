import TwinEngine.Component.Type

/-!
Contract: how values of a component cross to core code.

Owns: the core types that a value takes, and the core signature of a function together with what its
crossing needs.
-/

namespace TwinEngine.Component

open TwinEngine.Binary

namespace PrimitiveType

def flat : PrimitiveType → List ValType
  | .bool | .s8 | .u8 | .s16 | .u16 | .s32 | .u32 | .char => [.i32]
  | .s64 | .u64 => [.i64]
  | .f32 => [.f32]
  | .f64 => [.f64]
  | .string => [.i32, .i32]

end PrimitiveType

def joined (left right : ValType) : ValType :=
  if left = right then left
  else
    match left, right with
    | .i32, .f32 | .f32, .i32 => .i32
    | _, _ => .i64

def joinedRows : List ValType → List ValType → List ValType
  | left :: lefts, right :: rights => joined left right :: joinedRows lefts rights
  | [], rights => rights
  | lefts, [] => lefts

def flatCases (rows : List (List ValType)) : List ValType :=
  .i32 :: rows.foldl joinedRows []

namespace Arena

def flatWithin (arena : Arena) : Nat → ValueType → List ValType
  | _, .primitive type => type.flat
  | 0, .defined _ => []
  | fuel + 1, .defined number =>
    match arena.defined? number with
    | none => []
    | some (.primitive type) => type.flat
    | some (.record fields) => fields.flatMap fun field => flatWithin arena fuel field.2
    | some (.tuple items) => items.flatMap (flatWithin arena fuel)
    | some (.variant cases) =>
      flatCases ((cases.filterMap (·.2)).map (flatWithin arena fuel))
    | some (.option item) => flatCases [flatWithin arena fuel item]
    | some (.result success failure) =>
      flatCases ((success.toList ++ failure.toList).map (flatWithin arena fuel))
    | some (.list _) => [.i32, .i32]
    | some (.flags names) => List.replicate ((names.length + 31) / 32) .i32
    | some (.enumeration _) | some (.own _) | some (.borrow _) => [.i32]

def flat (arena : Arena) (type : ValueType) : List ValType := arena.flatWithin arena.depth type

def pointsWithin (arena : Arena) : Nat → ValueType → Bool
  | _, .primitive type => type = .string
  | 0, .defined _ => false
  | fuel + 1, .defined number =>
    match arena.defined? number with
    | some (.primitive type) => type = .string
    | some (.list _) => true
    | some type => type.parts.any (pointsWithin arena fuel)
    | none => false

def points (arena : Arena) (type : ValueType) : Bool := arena.pointsWithin arena.depth type

end Arena

/-- The direction of a crossing: core code that is offered as a function of the component, or a
function of the component that is offered to core code. -/
inductive Crossing where
  | lift
  | lower
deriving DecidableEq, Repr

/-- The core signature of a function, and whether its crossing needs a memory or an allocator. -/
structure CrossingType where
  signature : Signature
  needsMemory : Bool
  needsAllocator : Bool
deriving DecidableEq, Repr

def flatParamLimit : Nat := 16

def flatResultLimit : Nat := 1

namespace Arena

/-- The core types of values in a row, or nothing if there are more than a limit, and whether any of
the values up to that point has parts in memory. -/
def flatRow (arena : Arena) (limit : Nat) :
    List ValueType → List ValType → Bool → Option (List ValType) × Bool
  | [], done, pointing => (some done, pointing)
  | type :: rest, done, pointing =>
    let pointing := pointing || arena.points type
    let done := done ++ arena.flat type
    if limit < done.length then (none, pointing) else flatRow arena limit rest done pointing

/-- The core signature of a function that crosses in a direction. Parameters that are too many are
passed in memory, which core code has to allocate if it is the one that is called. Results that are
too many are returned in memory, at a place that the caller passes if it is core code. -/
def crossingType (arena : Arena) (crossing : Crossing) (type : Callable) : CrossingType :=
  let (params, paramsPoint) := arena.flatRow flatParamLimit (type.params.map (·.2)) [] false
  let (results, resultsPoint) := arena.flatRow flatResultLimit (type.results.map (·.2)) [] false
  let indirect := params.isNone || results.isNone
  match crossing with
  | .lift =>
    let needsAllocator := paramsPoint || params.isNone
    ⟨⟨params.getD [.i32], results.getD [.i32]⟩, indirect || needsAllocator, needsAllocator⟩
  | .lower =>
    let place := if results.isNone then [.i32] else []
    ⟨⟨params.getD [.i32] ++ place, results.getD []⟩, indirect || paramsPoint || resultsPoint,
      resultsPoint⟩

end Arena

end TwinEngine.Component
