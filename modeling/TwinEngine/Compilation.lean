import TwinEngine.Analysis
import TwinEngine.Lowering

/-!
Contract: the compilation of a module.

Owns: compile options and fallback policies, the decision per function whether a call goes to
compiled code, to the interpreter or to an import, and the dispatch tables of indirect calls.

Every function has a unit: its own code, or a stub that passes the call on.
-/

namespace TwinEngine

open Machine (CodeUnit)

/-- What to do with a function whose unit is larger than the limit. -/
inductive FallbackPolicy where
  | fail
  | warn
  | silent
deriving DecidableEq, Repr

namespace FallbackPolicy

def name : FallbackPolicy → String
  | .fail => "Fail"
  | .warn => "Warn"
  | .silent => "Silent"

/-- Read a policy; the case of ASCII letters does not matter. -/
def read (text : String) : Except Error FallbackPolicy :=
  match text.toLower with
  | "fail" => .ok .fail
  | "warn" => .ok .warn
  | "silent" => .ok .silent
  | other => .error (.configuration (.unknownPolicy other))

end FallbackPolicy

/-- Largest unit that the machine takes, in bytes. -/
def maxCodeSize : Nat := 65535

/-- How to compile a module. `interpreted` lists functions that run in the interpreter whatever
their size. -/
structure CompileOptions where
  fallback : FallbackPolicy := .fail
  interpreted : List Nat := []
  maxCodeSize : Nat := TwinEngine.maxCodeSize
deriving DecidableEq, Repr

namespace CompileOptions

def validate (options : CompileOptions) : Except Error Unit :=
  if options.interpreted ≠ [] ∧ options.fallback ≠ .fail then
    .error (.configuration .interpretedNeedsFail)
  else if options.maxCodeSize = 0 then .error (.configuration .zeroCodeSize)
  else .ok ()

/-- Refuse listed functions that a module does not have; the lowest is reported. -/
def checkRange (options : CompileOptions) (count : Nat) : Except Error Unit :=
  match (options.interpreted.filter (count ≤ ·)).min? with
  | some function => .error (.configuration (.interpretedOutOfRange function count))
  | none => .ok ()

end CompileOptions

inductive Resolution where
  | compiled
  | interpreted
  | host
deriving DecidableEq, Repr

def Resolution.name : Resolution → String
  | .compiled => "compiled"
  | .interpreted => "interpreted"
  | .host => "host"

structure FallbackWarning where
  function : Nat
  name : Option String
  size : Nat
  limit : Nat
deriving DecidableEq, Repr

def FallbackWarning.message (warning : FallbackWarning) : String :=
  s!"using interpreted mode for {describeFunction warning.function warning.name} " ++
    s!"({warning.size} bytes exceeds the {warning.limit} byte code unit limit)"

/-- A compiled module: a unit and a resolution for every function, and for every type the functions
of that type. -/
structure CompiledModule where
  source : Module
  units : Array CodeUnit
  resolutions : Array Resolution
  dispatch : Array (List Nat)

/-- Counts over a compiled module. `codeSize` is the bytes of all units. -/
structure CompileStats where
  compiled : Nat
  interpreted : Nat
  host : Nat
  codeSize : Nat
deriving DecidableEq, Repr

def CompiledModule.stats (compiled : CompiledModule) : CompileStats where
  compiled := compiled.resolutions.count .compiled
  interpreted := compiled.resolutions.count .interpreted
  host := compiled.resolutions.count .host
  codeSize := compiled.units.foldl (fun total unit => total + unit.size) 0

namespace Module

/-- For every type, the functions whose type is equal to it, in ascending order. -/
def dispatchTables (source : Module) : Array (List Nat) :=
  let types := (List.range source.functionCount).map fun function =>
    (function, source.functionType function)
  source.types.map fun type =>
    (types.filter fun (_, functionType) => functionType == some type).map Prod.fst

/-- The unit and the resolution of one function, and the warning that goes with a fallback. -/
structure CompiledFunction where
  unit : CodeUnit
  resolution : Resolution
  warning : Option FallbackWarning

/-- Decide what becomes of a function that was lowered, or was too large for it. -/
def fallBack (source : Module) (options : CompileOptions) (function : Nat) (type : FunctionType) :
    Except Error CodeUnit → Except Error CompiledFunction
  | .ok unit => .ok ⟨unit, .compiled, none⟩
  | .error (.codeTooLarge _ size limit) =>
    let name := source.functionName function
    match options.fallback with
    | .fail => .error (.fallbackRequired function name size limit)
    | policy => do
        let unit ← Lowering.delegation function type .interpreted TwinEngine.maxCodeSize
        let warning : FallbackWarning := ⟨function, name, size, limit⟩
        return ⟨unit, .interpreted, if policy = .warn then some warning else none⟩
  | .error fault => .error fault

def compileFunction (source : Module) (options : CompileOptions) (function : Nat) :
    Except Error CompiledFunction :=
  match source.functionType function with
  | none => .error (.internal (.noType function))
  | some type =>
    if function < source.importCount then do
      let unit ← Lowering.delegation function type .imported TwinEngine.maxCodeSize
      return ⟨unit, .host, none⟩
    else if options.interpreted.contains function then do
      let unit ← Lowering.delegation function type .interpreted TwinEngine.maxCodeSize
      return ⟨unit, .interpreted, none⟩
    else do
      let code ← source.analyze function
      source.fallBack options function type
        (Lowering.function source function code.toList options.maxCodeSize)

end Module

structure Compilation where
  warnings : List FallbackWarning
  outcome : Except Error CompiledModule

namespace Compilation

structure Progress where
  units : Array CodeUnit
  resolutions : Array Resolution
  warnings : List FallbackWarning

def Progress.push (progress : Progress) (compiled : Module.CompiledFunction) : Progress where
  units := progress.units.push compiled.unit
  resolutions := progress.resolutions.push compiled.resolution
  warnings := compiled.warning.toList ++ progress.warnings

/-- Compile `count` functions from an index on. The warnings of a failed compilation are kept, last
first. -/
def functionsFrom (source : Module) (options : CompileOptions) :
    Nat → Nat → Progress → Except (Error × List FallbackWarning) Progress
  | 0, _, progress => .ok progress
  | count + 1, function, progress =>
    match source.compileFunction options function with
    | .ok compiled => functionsFrom source options count (function + 1) (progress.push compiled)
    | .error fault => .error (fault, progress.warnings)

end Compilation

def Module.compile (source : Module) (options : CompileOptions) : Compilation :=
  match options.validate, options.checkRange source.functionCount with
  | .error fault, _ => ⟨[], .error fault⟩
  | .ok (), .error fault => ⟨[], .error fault⟩
  | .ok (), .ok () =>
    match Compilation.functionsFrom source options source.functionCount 0 ⟨#[], #[], []⟩ with
    | .error (fault, warnings) => ⟨warnings.reverse, .error fault⟩
    | .ok progress =>
      { warnings := progress.warnings.reverse
        outcome := .ok
          { source := source
            units := progress.units
            resolutions := progress.resolutions
            dispatch := source.dispatchTables } }

end TwinEngine
