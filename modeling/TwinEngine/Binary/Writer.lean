/-!
Contract: writing numbers, names and sections of a binary module.

Owns: the shortest forms of numbers, and counted byte strings.

What is written here is what `Binary.Reader` reads back.
-/

namespace TwinEngine.Binary.Writer

def groupLimit : Nat := 5

/-- An unsigned number, seven bits to a byte, the low ones first. -/
def unsignedFrom : Nat → Nat → List UInt8
  | 0, _ => []
  | groups + 1, value =>
    if value < 128 then [value.toUInt8]
    else (128 + value % 128).toUInt8 :: unsignedFrom groups (value / 128)

/-- A signed number, seven bits to a byte, the low ones first. -/
def signedFrom : Nat → Int → List UInt8
  | 0, _ => []
  | groups + 1, value =>
    let low := (value % 128).toNat
    if -64 ≤ value ∧ value < 64 then [low.toUInt8]
    else (128 + low).toUInt8 :: signedFrom groups (value / 128)

/-- A count, an index or a size below `2 ^ 32`. -/
def index (value : Nat) : List UInt8 := unsignedFrom groupLimit value

def signed32 (value : Int) : List UInt8 := signedFrom groupLimit value

def sized (bytes : List UInt8) : List UInt8 := index bytes.length ++ bytes

def name (text : String) : List UInt8 := sized text.toUTF8.toList

def vector (items : List (List UInt8)) : List UInt8 := index items.length ++ items.flatten

/-- A section: its identifier, the size of its content, and the content. -/
def sectionOf (id : UInt8) (items : List (List UInt8)) : List UInt8 := id :: sized (vector items)

end TwinEngine.Binary.Writer
