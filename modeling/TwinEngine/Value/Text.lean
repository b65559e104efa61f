import TwinEngine.Value
import TwinEngine.Decimal.Integer
import TwinEngine.Decimal.Shortest
import TwinEngine.Text.Hex

/-!
Contract: text of kinds, function types and values.

Owns: the names of kinds, the display text of values and types, and the exchange text of values,
which keeps every bit and reads back.
-/

namespace TwinEngine

namespace ValueKind

def all : List ValueKind := [.i32, .i64, .f32, .f64, .funcRef, .externRef]

def name : ValueKind → String
  | .i32 => "i32"
  | .i64 => "i64"
  | .f32 => "f32"
  | .f64 => "f64"
  | .funcRef => "funcref"
  | .externRef => "externref"

def ofName? (name : String) : Option ValueKind :=
  all.find? (·.name == name)

def listText (kinds : List ValueKind) : String :=
  " ".intercalate (kinds.map name)

/-- Read one item of a kind list: a name, or a name repeated as in `i64*130`. -/
def readItem? (item : String) : Option (List ValueKind) :=
  match item.splitOn "*" with
  | [name] => (ofName? name).map ([·])
  | [name, count] => do
      let kind ← ofName? name
      let count ← Decimal.natural? count
      some (List.replicate count kind)
  | _ => none

/-- Read a kind list: items separated by spaces, or nothing. -/
def readList? (text : String) : Option (List ValueKind) :=
  if text.isEmpty then some []
  else ((text.splitOn " ").mapM readItem?).map List.flatten

end ValueKind

namespace FunctionType

def text (type : FunctionType) : String :=
  "[" ++ ValueKind.listText type.params ++ "] -> [" ++ ValueKind.listText type.results ++ "]"

end FunctionType

def signedText32 (bits : UInt32) : String := toString bits.toBitVec.toInt

def signedText64 (bits : UInt64) : String := toString bits.toBitVec.toInt

def floatText32 (bits : UInt32) : String := Decimal.floatText .single bits.toNat

def floatText64 (bits : UInt64) : String := Decimal.floatText .double bits.toNat

namespace Value

def text : Value → String
  | .i32 bits => signedText32 bits ++ ":i32"
  | .i64 bits => signedText64 bits ++ ":i64"
  | .f32 bits => floatText32 bits ++ ":f32"
  | .f64 bits => floatText64 bits ++ ":f64"
  | .funcRef none | .externRef none => "null"
  | .funcRef (some reference) => s!"func[{reference.owner.toNat}:{reference.index.toNat}]"
  | .externRef (some handle) => s!"extern[{handle.toNat}]"

def listText (values : List Value) : String :=
  "[" ++ ", ".intercalate (values.map text) ++ "]"

/-- Exchange text: the kind, then the payload in a form that keeps every bit. -/
def spell : Value → String
  | .i32 bits => "i32:" ++ signedText32 bits
  | .i64 bits => "i64:" ++ signedText64 bits
  | .f32 bits => "f32:" ++ Text.hex 8 bits.toNat
  | .f64 bits => "f64:" ++ Text.hex 16 bits.toNat
  | .funcRef none => "funcref:null"
  | .funcRef (some reference) => s!"funcref:{reference.owner.toNat}:{reference.index.toNat}"
  | .externRef none => "externref:null"
  | .externRef (some handle) => s!"externref:{handle.toNat}"

def ofSpelling? (text : String) : Option Value :=
  match text.splitOn ":" with
  | ["i32", number] => (Decimal.integer? number).map fun n => .i32 (UInt32.ofInt n)
  | ["i64", number] => (Decimal.integer? number).map fun n => .i64 (UInt64.ofInt n)
  | ["f32", digits] => (Text.readHex? digits).map fun n => .f32 (UInt32.ofNat n)
  | ["f64", digits] => (Text.readHex? digits).map fun n => .f64 (UInt64.ofNat n)
  | ["funcref", "null"] => some (.funcRef none)
  | ["funcref", owner, index] => do
      let owner ← Decimal.natural? owner
      let index ← Decimal.natural? index
      some (.funcRef (some ⟨UInt32.ofNat owner, UInt32.ofNat index⟩))
  | ["externref", "null"] => some (.externRef none)
  | ["externref", handle] =>
    (Decimal.natural? handle).map fun n => .externRef (some (UInt32.ofNat n))
  | _ => none

end Value

end TwinEngine
