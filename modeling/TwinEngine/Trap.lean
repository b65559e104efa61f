import TwinEngine.Value.Text

/-!
Contract: traps, the faults that end a call.

Owns: the categories of trap, the causes of host faults, and the text of each.
-/

namespace TwinEngine

inductive TrapKind where
  | unreachable
  | memoryOutOfBounds
  | tableOutOfBounds
  | undefinedElement
  | uninitializedElement
  | indirectCallTypeMismatch
  | unknownFunction
  | callStackExhausted
  | integerOverflow
  | integerDivideByZero
  | invalidConversion
  | interrupted
  | host
deriving DecidableEq, Repr

namespace TrapKind

def all : List TrapKind :=
  [.unreachable, .memoryOutOfBounds, .tableOutOfBounds, .undefinedElement, .uninitializedElement,
    .indirectCallTypeMismatch, .unknownFunction, .callStackExhausted, .integerOverflow,
    .integerDivideByZero, .invalidConversion, .interrupted, .host]

def name : TrapKind → String
  | .unreachable => "Unreachable"
  | .memoryOutOfBounds => "MemoryOutOfBounds"
  | .tableOutOfBounds => "TableOutOfBounds"
  | .undefinedElement => "UndefinedElement"
  | .uninitializedElement => "UninitializedElement"
  | .indirectCallTypeMismatch => "IndirectCallTypeMismatch"
  | .unknownFunction => "UnknownFunction"
  | .callStackExhausted => "CallStackExhausted"
  | .integerOverflow => "IntegerOverflow"
  | .integerDivideByZero => "IntegerDivideByZero"
  | .invalidConversion => "InvalidConversion"
  | .interrupted => "Interrupted"
  | .host => "Host"

def ofName? (name : String) : Option TrapKind :=
  all.find? (·.name == name)

end TrapKind

/-- Causes of a trap that the surroundings of a call raise, rather than its code. -/
inductive HostFault where
  | unknownInstance (id : Nat)
  | argumentKinds (function : Nat) (expected : FunctionType) (arguments : List Value)
  | resultKinds (declared : FunctionType) (results : List Value)
  | noActiveCall
  | noSuspendedFrame
  | invalidBox (handle : Nat)
  | pastEnd (function : Nat)
  | branchDepth (depth : Nat)
  | typeIndex (index : Nat)
  | report (text : String)
deriving DecidableEq, Repr

def HostFault.message : HostFault → String
  | .unknownInstance id => s!"unknown instance {id}"
  | .argumentKinds function expected arguments =>
    s!"function {function} expects {expected.text}, called with {Value.listText arguments}"
  | .resultKinds declared results =>
    s!"host function declared {declared.text} but returned {Value.listText results}"
  | .noActiveCall => "no active call"
  | .noSuspendedFrame => "no suspended frame"
  | .invalidBox handle => s!"invalid box handle {handle}"
  | .pastEnd function => s!"function {function} ran past the end of its code"
  | .branchDepth depth => s!"branch depth {depth} out of range"
  | .typeIndex index => s!"type index {index} out of range"
  | .report text => text

inductive Trap where
  | unreachable
  | memoryOutOfBounds
  | tableOutOfBounds
  | undefinedElement
  | uninitializedElement
  | indirectCallTypeMismatch
  | unknownFunction (function : Nat)
  | callStackExhausted
  | integerOverflow
  | integerDivideByZero
  | invalidConversion
  | interrupted
  | host (fault : HostFault)
deriving DecidableEq, Repr

namespace Trap

def kind : Trap → TrapKind
  | .unreachable => .unreachable
  | .memoryOutOfBounds => .memoryOutOfBounds
  | .tableOutOfBounds => .tableOutOfBounds
  | .undefinedElement => .undefinedElement
  | .uninitializedElement => .uninitializedElement
  | .indirectCallTypeMismatch => .indirectCallTypeMismatch
  | .unknownFunction _ => .unknownFunction
  | .callStackExhausted => .callStackExhausted
  | .integerOverflow => .integerOverflow
  | .integerDivideByZero => .integerDivideByZero
  | .invalidConversion => .invalidConversion
  | .interrupted => .interrupted
  | .host _ => .host

/-- The trap of a category, with the function and the report that some categories carry. -/
def ofKind (function : Nat) (report : String) : TrapKind → Trap
  | .unreachable => .unreachable
  | .memoryOutOfBounds => .memoryOutOfBounds
  | .tableOutOfBounds => .tableOutOfBounds
  | .undefinedElement => .undefinedElement
  | .uninitializedElement => .uninitializedElement
  | .indirectCallTypeMismatch => .indirectCallTypeMismatch
  | .unknownFunction => .unknownFunction function
  | .callStackExhausted => .callStackExhausted
  | .integerOverflow => .integerOverflow
  | .integerDivideByZero => .integerDivideByZero
  | .invalidConversion => .invalidConversion
  | .interrupted => .interrupted
  | .host => .host (.report report)

def message : Trap → String
  | .unreachable => "Trapped on unreachable instruction"
  | .memoryOutOfBounds => "out of bounds memory access"
  | .tableOutOfBounds => "out of bounds table access"
  | .undefinedElement => "undefined element"
  | .uninitializedElement => "uninitialized element"
  | .indirectCallTypeMismatch => "indirect call type mismatch"
  | .unknownFunction function => s!"unknown function {function}"
  | .callStackExhausted => "call stack exhausted"
  | .integerOverflow => "integer overflow"
  | .integerDivideByZero => "integer divide by zero"
  | .invalidConversion => "invalid conversion to integer"
  | .interrupted => "Thread interrupted"
  | .host fault => "host error: " ++ fault.message

end Trap

end TwinEngine
