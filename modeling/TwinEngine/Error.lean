import TwinEngine.Trap
import TwinEngine.Operator.Text
import TwinEngine.Machine.Instruction

/-!
Contract: the causes for which work on a module is refused, and their text.

Owns: one type of error for reading, analysing, lowering, compiling, linking and running, built from
the causes of each stage, and the one function that words each of them.
-/

namespace TwinEngine

/-- A block-like region of a body: the body itself, or the block opened at an instruction index. -/
inductive Scope where
  | function
  | block (opener : Nat)
deriving DecidableEq, Repr

inductive Feature where
  | vectors
  | referenceType
  | heapType
  | constantOperator
  | extendedConstant
  | nonFunctionType
  | nonFunctionImport (moduleName name : String)
  | multipleMemories
  | tagExport
  | memoryPages (pages : Nat)
  | localSlots (function slots : Nat)
  | switchTargets (count : Nat)
  | signaturePool
  | wideUnwind
  | resultSlots
deriving DecidableEq, Repr

inductive DepthFault where
  | pastEnd
  | inconsistentDepth (seen depth : Nat)
  | localSlot (slot slots : Nat)
  | underflow (instruction : Machine.Instruction Nat) (depth : Nat)
  | returnSlots (returned needed : Nat)
deriving DecidableEq, Repr

inductive UnitFault where
  | undecodable (position : Nat)
  | jumpTarget (start : Nat) (target : Int)
  | targetIndex (index : Nat)
  | missingSignature (signature : Nat)
  | instruction (index : Nat) (fault : DepthFault)
deriving DecidableEq, Repr

inductive ConfigFault where
  | unknownPolicy (text : String)
  | interpretedNeedsFail
  | zeroCodeSize
  | interpretedOutOfRange (function count : Nat)
deriving DecidableEq, Repr

inductive LinkFault where
  | unknownInstance (id : Nat)
  | unknownInstanceFor (id : Nat) (moduleName : String)
  | missingExport (id : Nat) (name : String)
  | unknownImport (moduleName name : String)
  | importType (moduleName name : String) (actual expected : FunctionType)
  | noExportedFunction (name : String)
  | uninitializedGlobal (index : Nat)
  | tooManyInstances
deriving DecidableEq, Repr

inductive IndexSpace where
  | locals
  | globals
  | tables
deriving DecidableEq, Repr

/-- Conditions that no valid module brings about. -/
inductive InternalFault where
  | emptyPop
  | emptyPeek
  | blockParameters (scope : Scope)
  | wrongExit (scope : Scope) (innermost : Option Scope)
  | scopeNotOpen (scope : Scope)
  | noSnapshot
  | wrongRestore (scope : Scope) (innermost : Option Scope)
  | openSnapshots (count : Nat)
  | unbalancedScopes (scopes : List Scope)
  | leftOnStack (kinds : List ValueKind)
  | noBody (function : Nat)
  | noType (function : Nat)
  | unresolvedBranch
  | indexOutOfRange (space : IndexSpace) (index : Nat)
  | typeIndexOutOfRange (index : Nat)
  | unknownCallee (function : Nat)
  | branchTargetOutOfRange (label : Nat)
  | notAnOpener (operator : Operator)
  | blockTypeOutOfRange (index : Nat)
  | unresolvedLabel (label : Nat)
  | jumpDistance (distance : Int)
  | fixupOperand (instruction : Nat)
  | localOutOfRange (index : Nat)
  | globalOutOfRange (index : Nat)
  | parameterIndex
  | argumentSlot (slot : Nat)
  | importType (index : Nat)
  | exportType (name : String)
  | emptyConstant
deriving DecidableEq, Repr

inductive Error where
  | malformed
  | unsupported (feature : Feature)
  | typeMismatch (expected : ValueKind) (found : Option ValueKind)
  | unsupportedOpcode (operator : Option Operator)
  | analysis (function index : Nat) (operator : Option Operator) (cause : Error)
  | codeTooLarge (function size limit : Nat)
  | fallbackRequired (function : Nat) (name : Option String) (size limit : Nat)
  | verification (function : Nat) (fault : UnitFault)
  | configuration (fault : ConfigFault)
  | link (fault : LinkFault)
  | trap (fault : Trap)
  | internal (fault : InternalFault)
deriving Repr

/-- A function in words: its index, and its name where one is known. -/
def describeFunction (function : Nat) : Option String → String
  | some name => s!"WASM function index: {function} (name: {name})"
  | none => s!"WASM function index: {function}"

/-! ## Text -/

namespace Scope

def text : Scope → String
  | .function => "Function"
  | .block opener => s!"Block({opener})"

def optionText : Option Scope → String
  | none => "None"
  | some scope => s!"Some({scope.text})"

end Scope

def ValueKind.listedName : ValueKind → String
  | .i32 => "I32"
  | .i64 => "I64"
  | .f32 => "F32"
  | .f64 => "F64"
  | .funcRef => "FuncRef"
  | .externRef => "ExternRef"

def bracketed (items : List String) : String :=
  "[" ++ ", ".intercalate items ++ "]"

def Feature.message : Feature → String
  | .vectors => "SIMD (v128)"
  | .referenceType => "reference type"
  | .heapType => "heap type"
  | .constantOperator => "constant expression operator"
  | .extendedConstant => "extended constant expressions"
  | .nonFunctionType => "non-function type"
  | .nonFunctionImport moduleName name => s!"non-function import {moduleName}.{name}"
  | .multipleMemories => "multiple memories"
  | .tagExport => "tag export"
  | .memoryPages pages => s!"memory of {pages} pages"
  | .localSlots function slots =>
    s!"function {function} needs {slots} local slots, more than a code unit can address"
  | .switchTargets count => s!"branch table with {count} targets"
  | .signaturePool => "signature pool overflow"
  | .wideUnwind => "unwind wider than 65535 slots"
  | .resultSlots => "too many result slots"

def DepthFault.message : DepthFault → String
  | .pastEnd => "control falls off the end of the unit"
  | .inconsistentDepth seen depth => s!"inconsistent stack depth: {seen} and {depth}"
  | .localSlot slot slots => s!"local slot {slot} out of {slots} slots"
  | .underflow instruction depth =>
    s!"{instruction.loadedText} underflows stack of depth {depth}"
  | .returnSlots returned needed => s!"returns {returned} slots, signature needs {needed}"

def UnitFault.message : UnitFault → String
  | .undecodable position => s!"undecodable instruction at byte {position}"
  | .jumpTarget start target => s!"jump at byte {start} to {target} is not an instruction"
  | .targetIndex index => s!"jump target {index} out of range"
  | .missingSignature signature => s!"signature {signature} not in pool"
  | .instruction index fault => s!"at instruction {index}: {fault.message}"

def ConfigFault.message : ConfigFault → String
  | .unknownPolicy text => s!"unknown fallback policy '{text}' (expected fail, warn or silent)"
  | .interpretedNeedsFail => "explicitly interpreted functions require the FAIL fallback policy"
  | .zeroCodeSize => "max_code_size must be positive"
  | .interpretedOutOfRange function count =>
    s!"interpreted function {function} out of range ({count} functions)"

def LinkFault.message : LinkFault → String
  | .unknownInstance id => s!"unknown instance {id}"
  | .unknownInstanceFor id moduleName => s!"unknown instance {id} for {moduleName}"
  | .missingExport id name => s!"instance {id} does not export function {name}"
  | .unknownImport moduleName name => s!"unknown import {moduleName}.{name}"
  | .importType moduleName name actual expected =>
    s!"import {moduleName}.{name} has type {actual.text}, module expects {expected.text}"
  | .noExportedFunction name => s!"no exported function named {name}"
  | .uninitializedGlobal index => s!"constant expression reads uninitialized global {index}"
  | .tooManyInstances => "too many instances"

def IndexSpace.name : IndexSpace → String
  | .locals => "local"
  | .globals => "global"
  | .tables => "table"

def InternalFault.message : InternalFault → String
  | .emptyPop => "pop from empty type stack"
  | .emptyPeek => "peek on empty type stack"
  | .blockParameters scope => s!"block parameters exceed stack depth at {scope.text}"
  | .wrongExit scope innermost =>
    s!"exiting scope {scope.text} but innermost is {Scope.optionText innermost}"
  | .scopeNotOpen scope => s!"scope {scope.text} is not open"
  | .noSnapshot => "no if/else snapshot to pop"
  | .wrongRestore scope innermost =>
    s!"restoring scope {scope.text} but innermost is {Scope.optionText innermost}"
  | .openSnapshots count => s!"{count} if/else snapshots left open"
  | .unbalancedScopes scopes =>
    "unbalanced scopes at function end: " ++ bracketed (scopes.map Scope.text)
  | .leftOnStack kinds =>
    "types left on stack at function end: " ++ bracketed (kinds.map ValueKind.listedName)
  | .noBody function => s!"function {function} has no body"
  | .noType function => s!"function {function} has no type"
  | .unresolvedBranch => "branch without resolved label"
  | .indexOutOfRange space index => s!"{space.name} index {index} out of range"
  | .typeIndexOutOfRange index => s!"type index {index} out of range"
  | .unknownCallee function => s!"call to unknown function {function}"
  | .branchTargetOutOfRange label => s!"branch target {label} out of range"
  | .notAnOpener operator => s!"{operator.text} does not open a block"
  | .blockTypeOutOfRange index => s!"block type {index} out of range"
  | .unresolvedLabel label => s!"unresolved label {label}"
  | .jumpDistance distance => s!"jump distance {distance} overflows"
  | .fixupOperand instruction => s!"fixup on non-jump {instruction}"
  | .localOutOfRange index => s!"local {index} out of range"
  | .globalOutOfRange index => s!"global {index} out of range"
  | .parameterIndex => "parameter index overflow"
  | .argumentSlot slot => s!"argument slot {slot} out of range"
  | .importType index => s!"import type {index}"
  | .exportType name => s!"export {name} has no type"
  | .emptyConstant => "empty constant expression"

namespace Error

def malformedText : String := "malformed module"

def message : Error → String
  | .malformed => "WASM parsing error: " ++ malformedText
  | .unsupported feature => "Unsupported WASM feature: " ++ feature.message
  | .typeMismatch expected found =>
    let found := (found.map ValueKind.name).getD "empty stack"
    s!"Type mismatch: expected {expected.name}, found {found}"
  | .unsupportedOpcode operator =>
    "Unsupported opcode: " ++ (operator.map Operator.text).getD ""
  | .analysis function index operator cause =>
    let operator := (operator.map Operator.text).getD "end"
    s!"function {function}: instruction {index} ({operator}): {cause.message}"
  | .codeTooLarge function size limit =>
    s!"code unit for function {function} is {size} bytes, exceeding the {limit} byte limit"
  | .fallbackRequired function name size limit =>
    "WASM function size exceeds the code unit size limit and cannot be compiled. " ++
      "It can only be run in the interpreter. Either reduce the size of the function " ++
      "or enable the interpreter fallback mode: " ++ describeFunction function name ++
      s!" ({size} bytes, limit {limit})"
  | .verification function fault =>
    s!"code unit verification failed for function {function}: {fault.message}"
  | .configuration fault => "Invalid configuration: " ++ fault.message
  | .link fault => "Link error: " ++ fault.message
  | .trap fault => fault.message
  | .internal fault => "Internal error: " ++ fault.message

def chain : Error → List String
  | .malformed => [malformed.message, malformedText]
  | .analysis function index operator cause =>
    (analysis function index operator cause).message :: cause.chain
  | error => [error.message]

end Error

end TwinEngine
