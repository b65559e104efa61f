import TwinEngine.Machine.Verifier

/-!
Contract: code units under construction.

Owns: the buffer of instructions, labels and their positions, the fixups of jump operands, the
signature pool, the scratch slot, and the finishing of a unit.

A jump to a label is appended with a zero for its operand and a fixup. When the unit is finished,
every label has its position, and each fixup is patched with the byte distance from the start of its
instruction.
-/

namespace TwinEngine.Machine

/-- A jump operand that is asked for: a distance, or a label. -/
inductive JumpTarget where
  | distance (bytes : Int32)
  | label (id : Nat)
deriving DecidableEq, Repr

/-- What stands in the buffer until the operand is patched. -/
def JumpTarget.placeholder : JumpTarget → Int32
  | .distance bytes => bytes
  | .label _ => 0

/-- A jump operand that waits for its label: the index of its instruction, its own index among the
operands there, and the label. -/
structure Fixup where
  instruction : Nat
  operand : Nat
  label : Nat
deriving DecidableEq, Repr

namespace Fixup

/-- Fixups for the operands of one instruction, counted from an index on. -/
def ofOperands (instr : Nat) : Nat → List JumpTarget → List Fixup
  | _, [] => []
  | operand, .distance _ :: targets => ofOperands instr (operand + 1) targets
  | operand, .label label :: targets =>
    ⟨instr, operand, label⟩ :: ofOperands instr (operand + 1) targets

end Fixup

/-- A code unit under construction. `labels` holds the position of each label that is defined,
`size` the number of bytes so far, and `names` the label of each name asked for. -/
structure Emitter where
  function : Nat
  instructions : Array (Instruction Int32)
  fixups : Array Fixup
  labels : Array (Option Nat)
  size : Nat
  names : List (Nat × Nat)
  signatures : Array FunctionType
  localSlots : Nat
  scratch : Option UInt16
deriving DecidableEq, Repr

namespace Emitter

def new (function localSlots : Nat) : Emitter where
  function := function
  instructions := #[]
  fixups := #[]
  labels := #[]
  size := 0
  names := []
  signatures := #[]
  localSlots := localSlots
  scratch := none

/-- Append an instruction, with a fixup for each operand that is a label. -/
def push (emitter : Emitter) (instr : Instruction JumpTarget) : Emitter :=
  { emitter with
    instructions := emitter.instructions.push (instr.retarget JumpTarget.placeholder)
    fixups := emitter.fixups ++ Fixup.ofOperands emitter.instructions.size 0 instr.targets
    size := emitter.size + instr.encodedLength }

def emit (emitter : Emitter) (action : Action) : Emitter :=
  emitter.push (.plain action)

def emitEncoded (emitter : Emitter) (instr : Instruction Int32) : Emitter :=
  emitter.push (instr.retarget .distance)

def allocLabel (emitter : Emitter) : Nat × Emitter :=
  (emitter.labels.size, { emitter with labels := emitter.labels.push none })

def labelFor (emitter : Emitter) (name : Nat) : Nat × Emitter :=
  match emitter.names.lookup name with
  | some label => (label, emitter)
  | none =>
    let (label, emitter) := emitter.allocLabel
    (label, { emitter with names := (name, label) :: emitter.names })

def labelsFor (emitter : Emitter) : List Nat → List Nat × Emitter
  | [] => ([], emitter)
  | name :: names =>
    let (label, emitter) := emitter.labelFor name
    let (labels, emitter) := emitter.labelsFor names
    (label :: labels, emitter)

def define (emitter : Emitter) (label : Nat) : Emitter :=
  { emitter with labels := emitter.labels.setIfInBounds label (some emitter.size) }

/-- Whether a label has its position; a jump to it then goes backwards. -/
def isDefined (emitter : Emitter) (label : Nat) : Bool :=
  (emitter.labels.getD label none).isSome

def jump (emitter : Emitter) (condition : Condition) (label : Nat) : Emitter :=
  emitter.push (.jump condition (.label label))

/-- Append a switch over labels, the last of which is its default. -/
def switch (emitter : Emitter) (labels : List Nat) : Except Error Emitter :=
  if labels.length > 65535 then .error (.unsupported (.switchTargets labels.length))
  else .ok (emitter.push (.switch (labels.map .label)))

/-- Place of a type in the signature pool, at its end when the type is new. -/
def signature (emitter : Emitter) (type : FunctionType) : Except Error (UInt16 × Emitter) :=
  match emitter.signatures.idxOf? type with
  | some index => .ok (UInt16.ofNat index, emitter)
  | none =>
    if emitter.signatures.size > 65535 then .error (.unsupported .signaturePool)
    else
      .ok (UInt16.ofNat emitter.signatures.size,
        { emitter with signatures := emitter.signatures.push type })

/-- The one extra local slot, allocated when first asked for. -/
def scratchSlot (emitter : Emitter) : Except Error (UInt16 × Emitter) :=
  match emitter.scratch with
  | some slot => .ok (slot, emitter)
  | none =>
    if emitter.localSlots > 65535 then
      .error (.unsupported (.localSlots emitter.function (emitter.localSlots + 1)))
    else
      let slot := UInt16.ofNat emitter.localSlots
      .ok (slot,
        { emitter with localSlots := emitter.localSlots + 1, scratch := some slot })

/-- Start of each instruction, in bytes. -/
def offsets (code : Array (Instruction Int32)) : Array Nat :=
  (code.foldl (fun (offsets, running) instr =>
    (offsets.push running, running + instr.encodedLength)) (#[], 0)).1

/-- The distance to a label from the start of an instruction. -/
def distanceTo (labels : Array (Option Nat)) (start label : Nat) : Except Error Int32 :=
  match labels.getD label none with
  | none => .error (.internal (.unresolvedLabel label))
  | some position =>
    let distance : Int := (position : Int) - start
    if -(2 ^ 31 : Nat) ≤ distance && distance < (2 ^ 31 : Nat) then
      .ok (Int32.ofInt distance)
    else .error (.internal (.jumpDistance distance))

/-- Put the distance to a label into the operand that waits for it, among those of all code. -/
def patch (labels : Array (Option Nat)) (offsets : Array Nat) (operands : Array (Array Int32))
    (fixup : Fixup) : Except Error (Array (Array Int32)) := do
  let distance ← distanceTo labels (offsets.getD fixup.instruction 0) fixup.label
  if fixup.operand < (operands.getD fixup.instruction #[]).size then
    .ok (operands.modify fixup.instruction (·.setIfInBounds fixup.operand distance))
  else .error (.internal (.fixupOperand fixup.instruction))

def resolveFixups (emitter : Emitter) : Except Error (Array (Instruction Int32)) := do
  let operands ← emitter.fixups.foldlM (patch emitter.labels (offsets emitter.instructions))
    (emitter.instructions.map (·.targets.toArray))
  return emitter.instructions.zipWith (fun instr own => instr.withTargets own.toList) operands

def encodeAll (code : Array (Instruction Int32)) : List UInt8 :=
  code.foldr (fun instr bytes => instr.encode ++ bytes) []

/-- Patch jumps, hold the size against a limit, and encode and check the unit. -/
def finish (emitter : Emitter) (signature : FunctionType) (limit : Nat) :
    Except Error CodeUnit := do
  let code ← emitter.resolveFixups
  if emitter.size > limit then
    throw (.codeTooLarge emitter.function emitter.size limit)
  let unit : CodeUnit :=
    { function := emitter.function
      bytes := encodeAll code
      signature := signature
      localSlots := emitter.localSlots
      maxStack := 0
      signatures := emitter.signatures }
  let loaded ← unit.load
  let maxStack ← loaded.verify
  return { unit with maxStack := maxStack }

end Emitter

end TwinEngine.Machine
