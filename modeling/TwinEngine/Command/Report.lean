import TwinEngine.Compilation
import TwinEngine.Command.Failure
import TwinEngine.Text.Json

/-!
Contract: what the commands print.

Owns: the report on a compiled module, as text and as JSON, and the lines for result values.
-/

namespace TwinEngine.Command

open Machine (CodeUnit)

def leftAligned (width : Nat) (text : String) : String :=
  text ++ String.ofList (List.replicate (width - text.length) ' ')

def linesText (lines : List String) : String :=
  String.join (lines.map (· ++ "\n"))

def entries (compiled : CompiledModule) : List (CodeUnit × Resolution) :=
  compiled.units.toList.zip compiled.resolutions.toList

def entryLine (source : Module) (unit : CodeUnit) (resolution : Resolution) : String :=
  let index := Failure.rightAligned 6 (toString unit.function)
  let size := Failure.rightAligned 6 (toString unit.size)
  let name := (source.functionName unit.function).getD "-"
  s!"{index}  {leftAligned 11 resolution.name}  {size} bytes  {name}"

def summaryLine (input : String) (stats : CompileStats) : String :=
  s!"Compiled {input}: {stats.compiled} compiled, {stats.interpreted} interpreted, " ++
    s!"{stats.host} host ({stats.codeSize} bytes)"

def textReport (input : String) (compiled : CompiledModule) : String :=
  let lines := (entries compiled).map fun (unit, resolution) =>
    entryLine compiled.source unit resolution
  linesText (lines ++ [summaryLine input compiled.stats])

def entryJson (source : Module) (unit : CodeUnit) (resolution : Resolution) : String :=
  Text.Json.object 2
    [ ("index", toString unit.function),
      ("max_stack", toString unit.maxStack),
      ("name", ((source.functionName unit.function).map Text.Json.quote).getD "null"),
      ("resolution", Text.Json.quote resolution.name),
      ("size", toString unit.size) ]

def jsonReport (input : String) (compiled : CompiledModule) : String :=
  let stats := compiled.stats
  let functions := (entries compiled).map fun (unit, resolution) =>
    entryJson compiled.source unit resolution
  linesText
    [ Text.Json.object 0
        [ ("code_size", toString stats.codeSize),
          ("compiled", toString stats.compiled),
          ("functions", Text.Json.array 1 functions),
          ("host", toString stats.host),
          ("input", Text.Json.quote input),
          ("interpreted", toString stats.interpreted) ] ]

def valueLine : Value → String
  | .i32 bits => signedText32 bits ++ ": i32"
  | .i64 bits => signedText64 bits ++ ": i64"
  | .f32 bits => floatText32 bits ++ ": f32"
  | .f64 bits => floatText64 bits ++ ": f64"
  | .funcRef none | .externRef none => "null"
  | .funcRef (some reference) => s!"funcref {reference.owner.toNat}:{reference.index.toNat}"
  | .externRef (some handle) => s!"externref {handle.toNat}"

end TwinEngine.Command
