import TwinEngine.Command.Failure
import TwinEngine.Decimal.Read

/-!
Contract: call arguments given as words.

Owns: the reading of a word as a value of the kind that a parameter has.
-/

namespace TwinEngine.Command

/-- Read an integer of a width: in the signed range, or in the unsigned range of the same width,
which stands for the same bits. -/
def readWord (width : Nat) (text : String) : Except Failure Int :=
  match Decimal.readInteger (.signed width) text with
  | .ok number => .ok number
  | .error _ =>
    match Decimal.readInteger (.signed 128) text with
    | .error fault => .error ⟨s!"invalid integer {text}", [fault.message]⟩
    | .ok number =>
      if 0 ≤ number ∧ number < 2 ^ width then .ok (number - 2 ^ width)
      else .error ⟨s!"integer out of range: {text}", []⟩

def readFloat (kind : ValueKind) (format : Numeric.FloatFormat) (text : String) :
    Except Failure Nat :=
  match Decimal.readFloat format text with
  | .ok bits => .ok bits
  | .error fault => .error ⟨s!"invalid {kind.name} {text}", [fault.message]⟩

/-- Read an argument. References have no words. -/
def readArgument (kind : ValueKind) (text : String) : Except Failure Value :=
  match kind with
  | .i32 => return .i32 (UInt32.ofInt (← readWord 32 text))
  | .i64 => return .i64 (UInt64.ofInt (← readWord 64 text))
  | .f32 => return .f32 (UInt32.ofNat (← readFloat kind .single text))
  | .f64 => return .f64 (UInt64.ofNat (← readFloat kind .double text))
  | .funcRef | .externRef =>
    .error ⟨"reference arguments cannot be passed from the command line", []⟩

/-- Read as many arguments as there are kinds; the first one that cannot be read is reported. -/
def readArguments (kinds : List ValueKind) (texts : List String) : Except Failure (List Value) :=
  (kinds.zip texts).mapM fun (kind, text) => readArgument kind text

end TwinEngine.Command
