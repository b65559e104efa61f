import TwinEngine.Binary.Conversion
import TwinEngine.Command.Argument
import TwinEngine.Command.Folder
import TwinEngine.Command.Report
import TwinEngine.Command.Request
import TwinEngine.World

/-!
Contract: carrying out a request.

Owns: the steps of each command in their order, and what it prints or how it fails.

Does not own: reading files and writing to the outside. A request is carried out on the contents of
its input file, or on the reason why there are none.
-/

namespace TwinEngine.Command

/-- What a command leaves: the text it prints, the warnings it gives, and how it failed if it did.
-/
structure Outcome where
  output : String := ""
  warnings : List String := []
  failure : Option Failure := none
deriving DecidableEq, Repr

def Outcome.status (outcome : Outcome) : Nat :=
  if outcome.failure.isSome then 1 else 0

/-- What was printed, or how it failed, with the warnings given on the way. -/
def Outcome.ofExcept (warnings : List String) : Except Failure String → Outcome
  | .ok output => { output, warnings }
  | .error failure => { warnings, failure := some failure }

/-- Whether the last part of a path ends in `.wat`, with something in front of the point. -/
def namesTextFormat (path : String) : Bool :=
  match ((path.splitOn "/").filter fun part => part != "" && part != ".").getLast? with
  | some name => name.endsWith ".wat" && name != ".wat"
  | none => false

/-- Read the module in an input file. A file that is named as text may hold a binary all the same;
text itself is refused. -/
def readModule (input : String) (contents : Contents) : Except Failure Module :=
  match contents with
  | .error failure => .error ⟨s!"Failed to read {input}", [failure.message]⟩
  | .ok bytes =>
    if namesTextFormat input && bytes.take 4 != Binary.Sections.magic then
      .error ⟨"WAT parse error: the text format is not supported", []⟩
    else (Module.parse bytes).mapError (Failure.during s!"Failed to decode {input}")

def compileModule (source : Module) (input : String) (options : CompileOptions) (json : Bool) :
    Outcome :=
  let compilation := source.compile options
  let report := if json then jsonReport input else textReport input
  .ofExcept (compilation.warnings.map FallbackWarning.message)
    ((compilation.outcome.map report).mapError (Failure.during "Compilation failed"))

def listFunction (source : Module) (function : Nat) : Except Failure String :=
  if function < source.importCount || source.functionCount ≤ function then
    .error ⟨s!"function {function} is not a defined function " ++
      s!"(imports: {source.importCount}, functions: {source.functionCount})", []⟩
  else match source.analyze function with
    | .ok code => .ok (linesText (code.toList.map Normalized.text))
    | .error error => .error (Failure.during "Analysis failed" error)

def callArguments (source : Module) (exportName : String) (arguments : List String) :
    Except Failure (List Value) :=
  match source.exportedFunction exportName with
  | none => .error ⟨s!"No exported function named {exportName}", []⟩
  | some function =>
    match source.functionType function with
    | none => .error ⟨s!"Function {function} has no type", []⟩
    | some type =>
      if type.params.length ≠ arguments.length then
        .error ⟨s!"{exportName} expects {type.params.length} arguments, " ++
          s!"got {arguments.length}", []⟩
      else readArguments type.params arguments

def invoke (fuel : Nat) (exportName : String) (values : List Value)
    (made : Ran (Except Error Nat)) : Option (Except Failure String) :=
  match made.outcome with
  | .error error => some (.error (Failure.during "Instantiation failed" error))
  | .ok id =>
    (made.store.invoke fuel id exportName values).map fun ran =>
      (ran.outcome.map fun results => linesText (results.map valueLine)).mapError Failure.ofError

/-- Make an instance and call one of its exports. Nothing is linked with it. -/
def callExport (fuel : Nat) (source : Module) (exportName : String) (values : List Value) :
    EngineOptions → Option Outcome
  | .interpreted => do
      let made ← ({} : Store).instantiate fuel source {} .interpreted
      return .ofExcept [] (← invoke fuel exportName values made)
  | .compiled options =>
    let compilation := source.compile options
    let warnings := compilation.warnings.map FallbackWarning.message
    match compilation.outcome with
    | .error error =>
      some (.ofExcept warnings (.error (Failure.during "Instantiation failed" error)))
    | .ok compiled => do
        let made ← ({} : Store).instantiateCompiled fuel compiled {}
        return .ofExcept warnings (← invoke fuel exportName values made)

/-- Carry out a request. Nothing comes of a run that needs more than `fuel` steps. -/
def Request.execute (request : Request) (fuel : Nat) (contents : Contents) : Option Outcome :=
  match readModule request.input contents with
  | .error failure => some { failure := some failure }
  | .ok source =>
    match request with
    | .compile input options json => some (compileModule source input options json)
    | .analyze _ function => some (.ofExcept [] (listFunction source function))
    | .run _ exportName arguments engine =>
      match callArguments source exportName arguments with
      | .error failure => some { failure := some failure }
      | .ok values => callExport fuel source exportName values engine

end TwinEngine.Command
