import TwinEngine.Binary.Type

/-!
Contract: the type definitions of a module and the order of types.

Owns: identity of type definitions, subtyping, and the rules for a group of definitions.

Two groups of definitions are the same group if they differ only in where they stand. Each group
that differs from all before it is stored once, and its definitions are numbered in the order in
which they are stored. Types are compared with numbers in place of the indices that were written, so
equal types look alike.
-/

namespace TwinEngine.Binary

/-! ## Renaming type indices -/

def HeapType.rename (target : Nat → Option Nat) : HeapType → Option HeapType
  | .basic kind => some (.basic kind)
  | .shared kind => some (.shared kind)
  | .defined index => (target index).map .defined

def RefType.rename (target : Nat → Option Nat) (type : RefType) : Option RefType :=
  (type.heap.rename target).map (⟨type.nullable, ·⟩)

def ValType.rename (target : Nat → Option Nat) : ValType → Option ValType
  | .ref type => (type.rename target).map .ref
  | type => some type

def FieldType.rename (target : Nat → Option Nat) (field : FieldType) : Option FieldType :=
  match field.storage with
  | .value type => (type.rename target).map (⟨.value ·, field.isMutable⟩)
  | _ => some field

def Signature.rename (target : Nat → Option Nat) (signature : Signature) : Option Signature := do
  let params ← signature.params.mapM (ValType.rename target)
  let results ← signature.results.mapM (ValType.rename target)
  return ⟨params, results⟩

def CompositeType.rename (target : Nat → Option Nat) : CompositeType → Option CompositeType
  | .func signature => (signature.rename target).map .func
  | .array cell => (cell.rename target).map .array
  | .struct fields => (fields.mapM (FieldType.rename target)).map .struct

def SubType.rename (target : Nat → Option Nat) (type : SubType) : Option SubType := do
  let composite ← type.composite.rename target
  match type.supertype with
  | none => return ⟨type.isFinal, none, composite⟩
  | some index => return ⟨type.isFinal, some (← target index), composite⟩

def ValType.isDefaultable : ValType → Bool
  | .ref type => type.nullable
  | _ => true

def FieldType.isDefaultable (field : FieldType) : Bool :=
  match field.storage with
  | .value type => type.isDefaultable
  | _ => true

/-! ## Types that are in use -/

/-- Whether values of a heap type can be declared. Those that threads share cannot, nor can
suspended computations. -/
def HeapType.isDeclarable : HeapType → Bool
  | .basic .cont | .basic .noCont | .shared _ => false
  | .basic _ | .defined _ => true

def ValType.isDeclarable : ValType → Bool
  | .ref type => type.heap.isDeclarable
  | _ => true

def FieldType.isDeclarable (field : FieldType) : Bool :=
  match field.storage with
  | .value type => type.isDeclarable
  | _ => true

def CompositeType.isDeclarable : CompositeType → Bool
  | .func signature =>
    signature.params.all ValType.isDeclarable && signature.results.all ValType.isDeclarable
  | .array cell => cell.isDeclarable
  | .struct fields => fields.all FieldType.isDeclarable

/-! ## Subtyping -/

/-- Whether every reference of the first basic heap type is one of the second. -/
def BasicHeap.within : BasicHeap → BasicHeap → Bool
  | .noFunc, .func | .noExternal, .external | .noExn, .exn | .noCont, .cont => true
  | .noAny, .any | .noAny, .eq | .noAny, .struct | .noAny, .array | .noAny, .i31 => true
  | .eq, .any | .struct, .any | .array, .any | .i31, .any => true
  | .struct, .eq | .array, .eq | .i31, .eq => true
  | left, right => left == right

/-- The largest heap type of the hierarchy of a basic heap type. -/
def BasicHeap.top : BasicHeap → BasicHeap
  | .func | .noFunc => .func
  | .external | .noExternal => .external
  | .exn | .noExn => .exn
  | .cont | .noCont => .cont
  | .any | .noAny | .eq | .struct | .array | .i31 => .any

def CompositeType.basic : CompositeType → BasicHeap
  | .func _ => .func
  | .array _ => .array
  | .struct _ => .struct

def CompositeType.least : CompositeType → BasicHeap
  | .func _ => .noFunc
  | .array _ | .struct _ => .noAny

/-- Type definitions. `definitions` holds those that are stored, `depths` counts the definitions
that each of them extends, and `groups` holds the groups that they form, each with its first number.
`indices` sends an index to the number of what it means. -/
structure TypeSpace where
  definitions : Array SubType := #[]
  depths : Array Nat := #[]
  groups : List (Nat × List SubType) := []
  indices : Array Nat := #[]
deriving Repr

namespace TypeSpace

def depthLimit : Nat := 63

def composite (space : TypeSpace) (number : Nat) : Option CompositeType :=
  (space.definitions[number]?).map SubType.composite

def compositeAt (space : TypeSpace) (index : Nat) : Option CompositeType :=
  (space.indices[index]?).bind space.composite

def signature (space : TypeSpace) (index : Nat) : Option Signature :=
  match space.compositeAt index with
  | some (.func signature) => some signature
  | _ => none

/-- Whether the first definition is the second or extends it, directly or through others. -/
def extendsFrom (space : TypeSpace) : Nat → Nat → Nat → Bool
  | 0, left, right => left == right
  | fuel + 1, left, right =>
    left == right ||
      match (space.definitions[left]?).bind SubType.supertype with
      | some above => extendsFrom space fuel above right
      | none => false

def heapWithin (space : TypeSpace) : HeapType → HeapType → Bool
  | .basic left, .basic right | .shared left, .shared right => left.within right
  | .defined left, .basic right =>
    match space.composite left with
    | some composite => composite.basic.within right
    | none => false
  | .basic left, .defined right =>
    match space.composite right with
    | some composite => left == composite.least
    | none => false
  | .defined left, .defined right => space.extendsFrom depthLimit left right
  | .shared _, _ | _, .shared _ => false

def refWithin (space : TypeSpace) (left right : RefType) : Bool :=
  (right.nullable || !left.nullable) && space.heapWithin left.heap right.heap

def within (space : TypeSpace) : ValType → ValType → Bool
  | .ref left, .ref right => space.refWithin left right
  | left, right => left == right

def storageWithin (space : TypeSpace) : StorageType → StorageType → Bool
  | .value left, .value right => space.within left right
  | left, right => left == right

/-- Whether a field can take the place of another: a mutable one only that of a mutable one. -/
def fieldWithin (space : TypeSpace) (left right : FieldType) : Bool :=
  (right.isMutable || !left.isMutable) && space.storageWithin left.storage right.storage

/-- Whether two lists have one length and agree place by place. -/
def pairwise {α β : Type} (agree : α → β → Bool) : List α → List β → Bool
  | [], [] => true
  | left :: lefts, right :: rights => agree left right && pairwise agree lefts rights
  | _, _ => false

def compositeWithin (space : TypeSpace) : CompositeType → CompositeType → Bool
  | .func left, .func right =>
    pairwise (fun low high => space.within high low) left.params right.params &&
      pairwise space.within left.results right.results
  | .array left, .array right => space.fieldWithin left right
  | .struct left, .struct right =>
    right.length ≤ left.length && pairwise space.fieldWithin (left.take right.length) right
  | _, _ => false

/-! ## Groups of definitions -/

/-- The number that an index in a group means if the group is the one whose first number is
`earlier`. An index from outside may not mean a member of that group. -/
def identify (space : TypeSpace) (earlier count index : Nat) : Option Nat :=
  let start := space.indices.size
  if index < start then
    (space.indices[index]?).bind fun number =>
      if earlier ≤ number ∧ number < earlier + count then none else some number
  else if index < start + count then some (earlier + (index - start))
  else none

/-- The first number of the stored group that a group repeats. -/
def findGroup (space : TypeSpace) (group : List SubType) : Option Nat :=
  (space.groups.find? fun (earlier, known) =>
    known.length == group.length &&
      group.mapM (SubType.rename (space.identify earlier group.length)) == some known).map (·.1)

/-- Whether each definition of a group extends only what stands at an earlier index. -/
def supertypesEarlier : Nat → List SubType → Bool
  | _, [] => true
  | index, type :: rest =>
    type.supertype.all (· < index) && supertypesEarlier (index + 1) rest

/-- Check that each definition may extend what it names; the depths so far grow. -/
def checkGroup (space : TypeSpace) : List SubType → Option TypeSpace
  | [] => some space
  | type :: rest =>
    match type.supertype with
    | none => checkGroup { space with depths := space.depths.push 0 } rest
    | some above =>
      match space.definitions[above]?, space.depths[above]? with
      | some super, some depth =>
        if !super.isFinal && space.compositeWithin type.composite super.composite &&
            depth + 1 ≤ depthLimit then
          checkGroup { space with depths := space.depths.push (depth + 1) } rest
        else none
      | _, _ => none

def addGroup (space : TypeSpace) (group : List SubType) : Option TypeSpace :=
  let count := group.length
  let numbers (first : Nat) := ((List.range count).map (first + ·)).toArray
  if !supertypesEarlier space.indices.size group || !group.all (·.composite.isDeclarable) then none
  else
    match space.findGroup group with
    | some earlier => some { space with indices := space.indices ++ numbers earlier }
    | none =>
      let first := space.definitions.size
      match group.mapM (SubType.rename (space.identify first count)) with
      | none => none
      | some known =>
        checkGroup { space with
          definitions := space.definitions ++ known.toArray
          groups := (first, known) :: space.groups
          indices := space.indices ++ numbers first } known

/-- The same stored definitions, and no index yet. -/
def fresh (space : TypeSpace) : TypeSpace := { space with indices := #[] }

/-! ## Looking up written types -/

def heapType (space : TypeSpace) (heap : HeapType) : Option HeapType :=
  heap.rename (space.indices[·]?)

def valType (space : TypeSpace) (type : ValType) : Option ValType :=
  if type.isDeclarable then type.rename (space.indices[·]?) else none

/-- A reference type that can be declared, with numbers in place of indices. -/
def refType (space : TypeSpace) (type : RefType) : Option RefType :=
  if type.heap.isDeclarable then type.rename (space.indices[·]?) else none

def topOf (space : TypeSpace) : HeapType → HeapType
  | .basic kind => .basic kind.top
  | .shared kind => .shared kind.top
  | .defined index =>
    match space.composite index with
    | some composite => .basic composite.basic.top
    | none => .basic .any

end TypeSpace

end TwinEngine.Binary
