import TwinEngine.Binary.Section
import TwinEngine.Binary.Writer
import TwinEngine.Module

/-!
Contract: modules made to measure.

Owns: a binary module with many functions, a binary module with one long function, and a module with
one operator.

Every function of the binary modules takes an `i32`, adds a number to it, and returns the sum.
-/

namespace TwinEngine.Workload

open TwinEngine.Binary (Sections)

/-- Bytes of the operators that the bodies use. -/
def localGetZero : List UInt8 := [0x20, 0x00]

def constant (value : Nat) : List UInt8 := 0x41 :: Binary.Writer.signed32 value

def add : List UInt8 := [0x6a]

def finish : List UInt8 := [0x0b]

def body (operators : List UInt8) : List UInt8 :=
  Binary.Writer.sized (Binary.Writer.index 0 ++ operators ++ finish)

def exported (name : String) (function : Nat) : List UInt8 :=
  Binary.Writer.name name ++ 0x00 :: Binary.Writer.index function

def moduleOf (exports bodies : List (List UInt8)) : List UInt8 :=
  Sections.magic ++ Sections.moduleVersion ++
    Binary.Writer.sectionOf 1 [[0x60, 0x01, 0x7f, 0x01, 0x7f]] ++
    Binary.Writer.sectionOf 3 (bodies.map fun _ => Binary.Writer.index 0) ++
    Binary.Writer.sectionOf 7 exports ++
    Binary.Writer.sectionOf 10 bodies

/-- A module with `count` functions, of which function `i` adds `i` and is exported as `f{i}`. -/
def manyFunctions (count : Nat) : List UInt8 :=
  let functions := List.range count
  moduleOf (functions.map fun function => exported s!"f{function}" function)
    (functions.map fun function =>
      body (localGetZero ++ constant (min function (2 ^ 31 - 1)) ++ add))

/-- A module with three functions: `small` adds seven, `double` adds its argument, and `big` adds
one as many times as asked. -/
def oversizedFunction (additions : Nat) : List UInt8 :=
  moduleOf [exported "small" 0, exported "double" 1, exported "big" 2]
    [body (localGetZero ++ constant 7 ++ add),
      body (localGetZero ++ localGetZero ++ add),
      body (localGetZero ++ (List.replicate additions (constant 1 ++ add)).flatten)]

/-- A module whose only function, exported as `f`, applies a numeric operator to its arguments. -/
def singleOperator (operator : Numeric.Operator) : Module :=
  let operands := (List.range operator.params.length).map Operator.localGet
  { types := #[⟨operator.params, [operator.result]⟩]
    functions := #[0]
    exports := #[⟨"f", .func, 0⟩]
    bodies := #[⟨[], annotate (operands ++ [.numeric operator, .finish])⟩] }

end TwinEngine.Workload
