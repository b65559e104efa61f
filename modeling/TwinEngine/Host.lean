import TwinEngine.Compilation
import TwinEngine.Memory
import TwinEngine.Table

/-!
Contract: functions that come from outside.

Owns: what a host function may ask of a store, and the definitions that a module is linked with.

A host function is a program that asks the store for one thing after another and ends with results
or a trap. What it learns between two requests is exactly what the answers tell it.
-/

namespace TwinEngine

inductive EngineOptions where
  | compiled (options : CompileOptions)
  | interpreted
deriving DecidableEq, Repr

structure InstanceView where
  source : Module
  memory : Option Memory
  tables : Array Table
  globals : Array UInt64

structure HostFunction (ρ : Type) where
  type : FunctionType
  run : List Value → ρ

/-- What the imports of a module are linked with: host functions by module name and name, and
instances by module name. The first entry of a name counts. -/
structure Imports (ρ : Type) where
  functions : List ((String × String) × HostFunction ρ) := []
  instances : List (String × Nat) := []

inductive HostProgram where
  | finish (outcome : Except Trap (List Value))
  | call (id function : Nat) (arguments : List Value)
      (next : Except Trap (List Value) → HostProgram)
  | invoke (id : Nat) (name : String) (arguments : List Value)
      (next : Except Error (List Value) → HostProgram)
  | instantiate (source : Module) (imports : Imports HostProgram) (engine : EngineOptions)
      (next : Except Error Nat → HostProgram)
  | instantiateCompiled (compiled : CompiledModule) (imports : Imports HostProgram)
      (next : Except Error Nat → HostProgram)
  | changeMemory (id : Nat) (change : Memory → Except Trap Memory)
      (next : Option (Except Trap Unit) → HostProgram)
  | observe (id : Nat) (next : Option InstanceView → HostProgram)
  | interrupt (next : Unit → HostProgram)

structure HostCall where
  moduleName : String
  name : String
  arguments : List Value
deriving DecidableEq, Repr

def HostCall.text (call : HostCall) : String :=
  s!"{call.moduleName}.{call.name}(" ++ ", ".intercalate (call.arguments.map Value.spell) ++ ")"

namespace Imports

variable {ρ : Type}

def define (imports : Imports ρ) (moduleName name : String) (function : HostFunction ρ) :
    Imports ρ :=
  { imports with functions := ((moduleName, name), function) :: imports.functions }

def defineInstance (imports : Imports ρ) (moduleName : String) (id : Nat) : Imports ρ :=
  { imports with instances := (moduleName, id) :: imports.instances }

def function? (imports : Imports ρ) (moduleName name : String) : Option (HostFunction ρ) :=
  imports.functions.lookup (moduleName, name)

def instance? (imports : Imports ρ) (moduleName : String) : Option Nat :=
  imports.instances.lookup moduleName

end Imports

end TwinEngine
