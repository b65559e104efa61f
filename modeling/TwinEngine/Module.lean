import TwinEngine.Body
import TwinEngine.Error

/-!
Contract: decoded modules.

Owns: the module type and the look-ups that every stage uses.

Does not own: reading a module from its binary form (`Binary`).

Function indices count the imports first, then the defined functions.
-/

namespace TwinEngine

structure FunctionImport where
  moduleName : String
  name : String
  typeIndex : Nat
deriving DecidableEq, Repr

inductive ExportKind where
  | func
  | table
  | memory
  | global
deriving DecidableEq, Repr

def ExportKind.name : ExportKind → String
  | .func => "func"
  | .table => "table"
  | .memory => "memory"
  | .global => "global"

structure Export where
  name : String
  kind : ExportKind
  index : Nat
deriving DecidableEq, Repr

inductive ConstExpr where
  | constant (value : Constant)
  | refNull (kind : ValueKind)
  | refFunc (function : Nat)
  | globalGet (index : Nat)
deriving DecidableEq, Repr

structure Global where
  kind : ValueKind
  isMutable : Bool
  init : ConstExpr
deriving DecidableEq, Repr

structure TableType where
  element : ValueKind
  initial : Nat
  maximum : Option Nat
  init : Option ConstExpr
deriving DecidableEq, Repr

/-- Sizes of a memory, in pages. -/
structure MemoryType where
  initial : Nat
  maximum : Option Nat
deriving DecidableEq, Repr

inductive ElementMode where
  | passive
  | active (table : Nat) (offset : ConstExpr)
  | declared
deriving DecidableEq, Repr

structure ElementSegment where
  kind : ValueKind
  items : List ConstExpr
  mode : ElementMode
deriving DecidableEq, Repr

/-- A data segment: its bytes, and its offset unless it is passive. -/
structure DataSegment where
  bytes : List UInt8
  offset : Option ConstExpr
deriving DecidableEq, Repr

/-- A decoded module. `functions` holds the type index of each defined function, and `names` the
known function names, of which the first entry of an index counts. -/
structure Module where
  types : Array FunctionType := #[]
  imports : Array FunctionImport := #[]
  functions : Array Nat := #[]
  tables : Array TableType := #[]
  memory : Option MemoryType := none
  globals : Array Global := #[]
  exports : Array Export := #[]
  start : Option Nat := none
  elements : Array ElementSegment := #[]
  data : Array DataSegment := #[]
  bodies : Array Body := #[]
  names : List (Nat × String) := []
deriving DecidableEq, Repr

namespace ConstExpr

def spell : ConstExpr → String
  | .constant value => value.render .exchange
  | .refNull kind => "ref.null " ++ kind.name
  | .refFunc function => wordText "ref.func" [function]
  | .globalGet index => wordText "global.get" [index]

def ofSpelling? (text : String) : Option ConstExpr :=
  match text.splitOn " " with
  | ["ref.null", kind] => (ValueKind.ofName? kind).map .refNull
  | ["ref.func", index] => (Decimal.natural? index).map .refFunc
  | ["global.get", index] => (Decimal.natural? index).map .globalGet
  | words => (Constant.ofWords? words).map .constant

end ConstExpr

namespace Module

def importCount (source : Module) : Nat := source.imports.size

def functionCount (source : Module) : Nat := source.imports.size + source.functions.size

def functionTypeIndex (source : Module) (function : Nat) : Option Nat :=
  if function < source.imports.size then (source.imports[function]?).map FunctionImport.typeIndex
  else source.functions[function - source.imports.size]?

def functionType (source : Module) (function : Nat) : Option FunctionType :=
  (source.functionTypeIndex function).bind (source.types[·]?)

def body (source : Module) (function : Nat) : Option Body :=
  if function < source.imports.size then none
  else source.bodies[function - source.imports.size]?

def blockType (source : Module) : BlockType → Except Error FunctionType
  | .empty => .ok .empty
  | .value kind => .ok ⟨[], [kind]⟩
  | .function index =>
    match source.types[index]? with
    | some type => .ok type
    | none => .error (.internal (.blockTypeOutOfRange index))

def exported (source : Module) (name : String) : Option Export :=
  source.exports.find? (·.name == name)

/-- The function that a name exports, if the first export with that name is a function. -/
def exportedFunction (source : Module) (name : String) : Option Nat :=
  match source.exported name with
  | some ⟨_, .func, index⟩ => some index
  | _ => none

def functionName (source : Module) (function : Nat) : Option String :=
  source.names.lookup function

/-- Keep the first of neighbouring entries with one index. -/
def firstOfEach : List (Nat × String) → List (Nat × String)
  | [] => []
  | entry :: rest =>
    match firstOfEach rest with
    | [] => [entry]
    | next :: later => if entry.1 = next.1 then entry :: later else entry :: next :: later

def nameTable (source : Module) : List (Nat × String) :=
  firstOfEach (source.names.mergeSort fun left right => left.1 ≤ right.1)

end Module

end TwinEngine
