import TwinEngine.Operator

/-!
Contract: text of operators.

Owns:
- display text, with decimal floating-point constants and bare block names;
- exchange text, with block types and floating-point bit patterns, and its reading.
-/

namespace TwinEngine

namespace BlockForm

def all : List BlockForm := [.block, .loop, .conditional]

def name : BlockForm → String
  | .block => "block"
  | .loop => "loop"
  | .conditional => "if"

end BlockForm

/-- How the parts are written that display and exchange text write differently. -/
structure OperatorStyle where
  blockType : BlockType → String
  float32 : UInt32 → String
  float64 : UInt64 → String

/-- Display: no block types, shortest decimals. -/
def OperatorStyle.display : OperatorStyle :=
  ⟨fun _ => "", floatText32, floatText64⟩

/-- Exchange: block types and bit patterns. -/
def OperatorStyle.exchange : OperatorStyle where
  blockType := fun
    | .empty => ""
    | .value kind => " " ++ kind.name
    | .function index => s!" type {index}"
  float32 := fun bits => Text.hex 8 bits.toNat
  float64 := fun bits => Text.hex 16 bits.toNat

namespace Constant

def render (style : OperatorStyle) : Constant → String
  | .i32 bits => "i32.const " ++ signedText32 bits
  | .i64 bits => "i64.const " ++ signedText64 bits
  | .f32 bits => "f32.const " ++ style.float32 bits
  | .f64 bits => "f64.const " ++ style.float64 bits

end Constant

def wordText (word : String) (indices : List Nat) : String :=
  indices.foldl (fun text index => text ++ s!" {index}") word

namespace Operator

def render (style : OperatorStyle) : Operator → String
  | .unreachable => "unreachable"
  | .nop => "nop"
  | .enter form type => form.name ++ style.blockType type
  | .otherwise => "else"
  | .finish => "end"
  | .branch depth => wordText "br" [depth]
  | .branchIf depth => wordText "br_if" [depth]
  | .branchTable targets fallback => wordText "br_table" (targets ++ [fallback])
  | .leave => "return"
  | .call function => wordText "call" [function]
  | .callIndirect table typeIndex => s!"call_indirect {table} (type {typeIndex})"
  | .tailCall function => wordText "return_call" [function]
  | .tailCallIndirect table typeIndex => s!"return_call_indirect {table} (type {typeIndex})"
  | .drop => "drop"
  | .select => "select"
  | .selectKind kind => s!"select (result {kind.name})"
  | .localGet index => wordText "local.get" [index]
  | .localSet index => wordText "local.set" [index]
  | .localTee index => wordText "local.tee" [index]
  | .globalGet index => wordText "global.get" [index]
  | .globalSet index => wordText "global.set" [index]
  | .tableGet table => wordText "table.get" [table]
  | .tableSet table => wordText "table.set" [table]
  | .tableSize table => wordText "table.size" [table]
  | .tableGrow table => wordText "table.grow" [table]
  | .tableFill table => wordText "table.fill" [table]
  | .tableCopy target source => wordText "table.copy" [target, source]
  | .tableInit table segment => wordText "table.init" [table, segment]
  | .elementDrop segment => wordText "elem.drop" [segment]
  | .load kind offset => s!"{kind.name} offset={offset}"
  | .store kind offset => s!"{kind.name} offset={offset}"
  | .memorySize => "memory.size"
  | .memoryGrow => "memory.grow"
  | .memoryFill => "memory.fill"
  | .memoryCopy => "memory.copy"
  | .memoryInit segment => wordText "memory.init" [segment]
  | .dataDrop segment => wordText "data.drop" [segment]
  | .constant value => value.render style
  | .refNull kind => "ref.null " ++ kind.name
  | .refIsNull => "ref.is_null"
  | .refFunc function => wordText "ref.func" [function]
  | .numeric operator => operator.name

def text (operator : Operator) : String := operator.render .display

def spell (operator : Operator) : String := operator.render .exchange

end Operator

/-! ## Reading exchange text -/

namespace Constant

def ofWords? : List String → Option Constant
  | ["i32.const", number] => (Decimal.integer? number).map fun n => .i32 (UInt32.ofInt n)
  | ["i64.const", number] => (Decimal.integer? number).map fun n => .i64 (UInt64.ofInt n)
  | ["f32.const", digits] => (Text.readHex? digits).map fun n => .f32 (UInt32.ofNat n)
  | ["f64.const", digits] => (Text.readHex? digits).map fun n => .f64 (UInt64.ofNat n)
  | _ => none

end Constant

namespace Operator

def plainWords : List Operator :=
  [.unreachable, .nop, .otherwise, .finish, .leave, .drop, .select, .memorySize, .memoryGrow,
    .memoryFill, .memoryCopy, .refIsNull]

def indexedWords : List (String × (Nat → Operator)) :=
  [("br", .branch), ("br_if", .branchIf), ("call", .call), ("return_call", .tailCall),
    ("local.get", .localGet), ("local.set", .localSet), ("local.tee", .localTee),
    ("global.get", .globalGet), ("global.set", .globalSet), ("table.get", .tableGet),
    ("table.set", .tableSet), ("table.size", .tableSize), ("table.grow", .tableGrow),
    ("table.fill", .tableFill), ("elem.drop", .elementDrop), ("memory.init", .memoryInit),
    ("data.drop", .dataDrop), ("ref.func", .refFunc)]

def blockTypeOfWords? : List String → Option BlockType
  | [] => some .empty
  | ["type", index] => (Decimal.natural? index).map .function
  | [kind] => (ValueKind.ofName? kind).map .value
  | _ => none

def dropLast? (last : Char) (word : String) : Option String :=
  match word.toList.reverse with
  | [] => none
  | char :: rest => if char = last then some (String.ofList rest.reverse) else none

/-- Read the offset of a memory access; it may be absent. -/
def offsetOfWords? : List String → Option Nat
  | [] => some 0
  | [word] =>
    match word.splitOn "=" with
    | ["offset", number] => Decimal.natural? number
    | _ => none
  | _ => none

def accessOfWords? (name : String) (rest : List String) : Option Operator :=
  match LoadKind.ofName? name, StoreKind.ofName? name with
  | some kind, _ => (offsetOfWords? rest).map (.load kind)
  | none, some kind => (offsetOfWords? rest).map (.store kind)
  | none, none => none

/-- Read a table index and a type index, as in `0 (type 3)`. -/
def indirectOfWords? (build : Nat → Nat → Operator) : List String → Option Operator
  | [table, "(type", index] => do
      let table ← Decimal.natural? table
      let index ← Decimal.natural? (← dropLast? ')' index)
      some (build table index)
  | _ => none

def twoOfWords? (build : Nat → Nat → Operator) : List String → Option Operator
  | [first, second] => do
      let first ← Decimal.natural? first
      let second ← Decimal.natural? second
      some (build first second)
  | _ => none

/-- Read the depths of a branch table, the last of which is its default. -/
def tableOfWords? (words : List String) : Option Operator := do
  let depths ← words.mapM Decimal.natural?
  match depths.reverse with
  | [] => none
  | fallback :: targets => some (.branchTable targets.reverse fallback)

def ofWords? : List String → Option Operator
  | [] => none
  | "br_table" :: rest => tableOfWords? rest
  | "call_indirect" :: rest => indirectOfWords? .callIndirect rest
  | "return_call_indirect" :: rest => indirectOfWords? .tailCallIndirect rest
  | "table.copy" :: rest => twoOfWords? .tableCopy rest
  | "table.init" :: rest => twoOfWords? .tableInit rest
  | ["select", "(result", kind] => do
      (ValueKind.ofName? (← dropLast? ')' kind)).map .selectKind
  | ["ref.null", kind] => (ValueKind.ofName? kind).map .refNull
  | name :: rest =>
    match BlockForm.all.find? (·.name == name) with
    | some form => (blockTypeOfWords? rest).map (.enter form)
    | none =>
    match rest, plainWords.find? (·.text == name), Numeric.Operator.ofName? name with
    | [], some operator, _ => some operator
    | [], none, some operator => some (.numeric operator)
    | _, _, _ =>
    match rest, indexedWords.lookup name with
    | [index], some build => (Decimal.natural? index).map build
    | _, _ =>
    match Constant.ofWords? (name :: rest) with
    | some value => some (.constant value)
    | none => accessOfWords? name rest

def ofSpelling? (text : String) : Option Operator :=
  ofWords? (text.splitOn " ")

end Operator

end TwinEngine
