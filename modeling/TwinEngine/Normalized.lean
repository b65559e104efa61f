import TwinEngine.Operator.Text

/-!
Contract: normalized code, the flat form of a body.

Owns: the instructions with explicit labels and jumps, and their text.

Does not own: making normalized code (`Analysis`) or lowering it (`Lowering`).

Labels are numbered by instruction index of the body; labels from the body's length upwards are made
by the analysis.
-/

namespace TwinEngine

/-- A normalized instruction.

`dropKeep` removes the values of `drop`, bottom first, from beneath those of `keep`. `ifZero` and
`ifNonzero` pop the value that they test. `switch` pops an index into its targets, the last of which
is its default. -/
inductive Normalized where
  | label (label : Nat)
  | goto (target : Nat)
  | ifZero (target : Nat)
  | ifNonzero (target : Nat)
  | switch (targets : List Nat)
  | dropKeep (drop keep : List ValueKind)
  | leave (kinds : List ValueKind)
  | trap
  | drop (kind : ValueKind)
  | select (kind : ValueKind)
  | localTee (index : Nat) (kind : ValueKind)
  | call (function : Nat)
  | callIndirect (typeIndex table : Nat)
  | operator (operator : Operator)
deriving DecidableEq, Repr

namespace Normalized

def targets : Normalized → List Nat
  | .goto target | .ifZero target | .ifNonzero target => [target]
  | .switch targets => targets
  | _ => []

def kindsText (kinds : List ValueKind) : String :=
  "[" ++ ValueKind.listText kinds ++ "]"

/-- One line of a listing. Labels stand at the margin, everything else two columns in. -/
def text : Normalized → String
  | .label name => s!"L{name}:"
  | .goto target => s!"  GOTO L{target}"
  | .ifZero target => s!"  IFEQ L{target}"
  | .ifNonzero target => s!"  IFNE L{target}"
  | .switch targets => targets.foldl (fun line target => line ++ s!" L{target}") "  SWITCH"
  | .dropKeep dropped kept => s!"  DROP_KEEP drop={kindsText dropped} keep={kindsText kept}"
  | .leave kinds => s!"  RETURN {kindsText kinds}"
  | .trap => "  TRAP"
  | .drop kind => s!"  DROP {kind.name}"
  | .select kind => s!"  SELECT {kind.name}"
  | .localTee index kind => s!"  LOCAL_TEE {index} {kind.name}"
  | .call function => s!"  CALL {function}"
  | .callIndirect typeIndex table => s!"  CALL_INDIRECT type={typeIndex} table={table}"
  | .operator op => "  " ++ op.text

/-! ## Reading -/

def labelOfWord? (word : String) : Option Nat :=
  match word.toList with
  | 'L' :: digits => Decimal.natural? (String.ofList digits)
  | _ => none

def fieldOfWord? (name word : String) : Option Nat :=
  match word.splitOn "=" with
  | [field, number] => if field = name then Decimal.natural? number else none
  | _ => none

def kindsBetween? (before after text : String) : Option (List ValueKind) := do
  let rest ← text.dropPrefix? before
  let inner ← rest.copy.dropSuffix? after
  ValueKind.readList? inner.copy

/-- Read a line of a listing, in exchange text. Blanks in front are optional. -/
def ofSpelling? (line : String) : Option Normalized :=
  let line := line.trimAsciiStart.copy
  match line.splitOn " " with
  | ["GOTO", target] => (labelOfWord? target).map .goto
  | ["IFEQ", target] => (labelOfWord? target).map .ifZero
  | ["IFNE", target] => (labelOfWord? target).map .ifNonzero
  | "SWITCH" :: targets => (targets.mapM labelOfWord?).map .switch
  | "DROP_KEEP" :: _ =>
    match line.splitOn "] keep=[" with
    | [first, second] => do
        let dropped ← kindsBetween? "DROP_KEEP drop=[" "" first
        let kept ← kindsBetween? "" "]" second
        some (.dropKeep dropped kept)
    | _ => none
  | "RETURN" :: _ => (kindsBetween? "RETURN [" "]" line).map .leave
  | ["TRAP"] => some .trap
  | ["DROP", kind] => (ValueKind.ofName? kind).map .drop
  | ["SELECT", kind] => (ValueKind.ofName? kind).map .select
  | ["LOCAL_TEE", index, kind] => do
      let index ← Decimal.natural? index
      (ValueKind.ofName? kind).map (.localTee index)
  | ["CALL", function] => (Decimal.natural? function).map .call
  | ["CALL_INDIRECT", typeIndex, table] => do
      let typeIndex ← fieldOfWord? "type" typeIndex
      (fieldOfWord? "table" table).map (.callIndirect typeIndex)
  | words =>
    match words with
    | [word] =>
      match (Operator.dropLast? ':' word).bind labelOfWord? with
      | some name => some (.label name)
      | none => (Operator.ofSpelling? line).map .operator
    | _ => (Operator.ofSpelling? line).map .operator

end Normalized

end TwinEngine
