import TwinEngine.Normalized

/-!
Contract: searching normalized code for a run of instructions.

Owns: patterns over single instructions and the search for the first place where a list of patterns
matches.
-/

namespace TwinEngine.Normalized

/-- A pattern over one instruction. Operands left out match anything; where an instruction carries
lists, the pattern looks at their lengths. -/
inductive Pattern where
  | any
  | label (label : Option Nat)
  | goto (target : Option Nat)
  | ifZero (target : Option Nat)
  | ifNonzero (target : Option Nat)
  | switch (count : Option Nat)
  | dropKeep (drop keep : Option Nat)
  | leave (count : Option Nat)
  | trap
  | drop
  | select
  | localTee (index : Option Nat)
  | call (function : Option Nat)
  | callIndirect (typeIndex : Option Nat)
  | operator (operator : Option Operator)
deriving DecidableEq, Repr

namespace Pattern

def accepts {α : Type} [DecidableEq α] (wanted : Option α) (found : α) : Bool :=
  match wanted with
  | none => true
  | some wanted => wanted == found

def isMatch : Pattern → Normalized → Bool
  | .any, _ => true
  | .label wanted, .label found => accepts wanted found
  | .goto wanted, .goto found => accepts wanted found
  | .ifZero wanted, .ifZero found => accepts wanted found
  | .ifNonzero wanted, .ifNonzero found => accepts wanted found
  | .switch wanted, .switch targets => accepts wanted targets.length
  | .dropKeep beneath above, .dropKeep dropped kept =>
    accepts beneath dropped.length && accepts above kept.length
  | .leave wanted, .leave kinds => accepts wanted kinds.length
  | .trap, .trap => true
  | .drop, .drop _ => true
  | .select, .select _ => true
  | .localTee wanted, .localTee index _ => accepts wanted index
  | .call wanted, .call function => accepts wanted function
  | .callIndirect wanted, .callIndirect typeIndex _ => accepts wanted typeIndex
  | .operator wanted, .operator found => accepts wanted found
  | _, _ => false

/-- Whether the patterns match a run of instructions at the front of the code. -/
def isPrefixMatch : List Pattern → List Normalized → Bool
  | [], _ => true
  | _ :: _, [] => false
  | pattern :: patterns, instr :: code =>
    pattern.isMatch instr && isPrefixMatch patterns code

def find? (patterns : List Pattern) : List Normalized → Nat → Option Nat
  | [], index => if patterns.isEmpty then some index else none
  | instr :: code, index =>
    if isPrefixMatch patterns (instr :: code) then some index
    else find? patterns code (index + 1)

end Pattern

def findPattern? (code : List Normalized) (patterns : List Pattern) : Option Nat :=
  Pattern.find? patterns code 0

end TwinEngine.Normalized
