import TwinEngine.Analysis
import TwinEngine.Proofs.Validation

/-!
Contract: what typing says about each instruction of a body.

Owns: the shape of the operands and the open blocks in front of an instruction, where a branch
lands, where control is taken up again after a transfer, and what it means that a body is typed.

Does not own: that valid bodies are typed (`Proofs.Typing.Body`), or any use of these facts.

An instruction has a shape if it can be reached, as far as the blocks around it tell; the
instruction that ends a block or its first arm has one in any case if its block does. Instructions
in between have none.
-/

namespace TwinEngine.Typing

/-- A block that is open in front of an instruction. The body itself has no opener. `beneath` holds
the kinds of the operands beneath the parameters, the last one first. A conditional is `pending` in
its first arm if it has a second one. -/
structure Block where
  opener : Option Nat
  isLoop : Bool
  type : FunctionType
  beneath : List ValueKind
  pending : Bool
deriving DecidableEq, Repr

namespace Block

def label (block : Block) : List ValueKind :=
  if block.isLoop then block.type.params else block.type.results

def entry (block : Block) : List ValueKind := block.type.params.reverse ++ block.beneath

/-- The operands at the end. -/
def exit (block : Block) : List ValueKind := block.type.results.reverse ++ block.beneath

def settled (block : Block) : Block := { block with pending := false }

def body (results : List ValueKind) : Block := ⟨none, false, ⟨[], results⟩, [], false⟩

end Block

/-- The kinds of the operands of a frame, the last one first, and the open blocks, innermost
first. -/
structure Shape where
  operands : List ValueKind
  blocks : List Block
deriving DecidableEq, Repr

section

variable (source : Module) (type : FunctionType) (body : Body) (shapes : Nat → Option Shape)

/-- Open blocks lie within each other: their openers come one after the other, and each holds the
operands of those around it beneath its own. -/
inductive Nested : List ValueKind → List Block → Prop
  | body (own : List ValueKind) : Nested own [Block.body type.results]
  | block (own : List ValueKind) {block : Block} {outer : List Block} {opener : Nat}
      {instr : Instruction} {form : BlockForm} {note : BlockType} :
      Nested block.beneath outer →
      (∀ other ∈ outer, ∀ earlier, other.opener = some earlier → earlier < opener) →
      block.opener = some opener →
      body.instructions[opener]? = some instr →
      instr.operator = .enter form note →
      source.blockType note = .ok block.type →
      block.isLoop = (form == .loop) →
      Nested (own ++ block.beneath) (block :: outer)

def Ends (target : Nat) (block : Block) (outer : List Block) : Prop :=
  shapes target = some ⟨block.exit, block.settled :: outer⟩ ∧
    ∃ instr, body.instructions[target]? = some instr ∧
      instr.operator = .finish ∧ instr.scope = block.opener

/-- A branch from an index out of blocks lands at a target: the end of the last of them, or its
start if it is a loop. -/
def Lands (index : Nat) (blocks : List Block) (depth target : Nat) (block : Block) : Prop :=
  ∃ outer, blocks.drop depth = block :: outer ∧
    if block.isLoop then
      target < index ∧ block.opener = some target ∧ shapes target = some ⟨block.entry, outer⟩ ∧
        shapes (target + 1) = some ⟨block.entry, block :: outer⟩
    else index < target ∧ Ends body shapes target block outer

/-- After a transfer at an index, control is taken up again at the end of the innermost block or of
its first arm. What lies in between has no shape. -/
def Resumes (index : Nat) (blocks : List Block) : Prop :=
  ∃ next instr block outer, blocks = block :: outer ∧ index < next ∧
    body.instructions[next]? = some instr ∧
    (instr.operator = .otherwise ∨ instr.operator = .finish) ∧
    instr.depth = outer.length ∧
    shapes next = some ⟨block.exit, blocks⟩ ∧
    ∀ between, index < between → between < next → shapes between = none ∧
      ∃ skipped, body.instructions[between]? = some skipped ∧
        Analysis.isSkipped outer.length skipped = true

def OperatorFlow (index : Nat) (shape : Shape) (instr : Instruction) : Prop :=
  match instr.operator with
  | .unreachable => Resumes body shapes index shape.blocks
  | .enter .conditional note =>
    ∃ (block : Block) (target : Nat), source.blockType note = .ok block.type ∧
      block.opener = some index ∧ block.isLoop = false ∧
      shape.operands = .i32 :: block.entry ∧
      shapes (index + 1) = some ⟨block.entry, block :: shape.blocks⟩ ∧
      instr.labelFalse = some target ∧ index < target ∧
      shapes target = some ⟨block.entry, block.settled :: shape.blocks⟩ ∧
      block.pending =
        ((body.instructions[target - 1]?).map Instruction.operator == some .otherwise)
  | .enter form note =>
    ∃ block : Block, source.blockType note = .ok block.type ∧
      block.opener = some index ∧ block.isLoop = (form == .loop) ∧ block.pending = false ∧
      shape.operands = block.entry ∧
      shapes (index + 1) = some ⟨block.entry, block :: shape.blocks⟩
  | .otherwise =>
    ∃ (block : Block) (outer : List Block) (target : Nat), shape.blocks = block :: outer ∧
      block.pending = true ∧ shape.operands = block.exit ∧
      shapes (index + 1) = some ⟨block.entry, block.settled :: outer⟩ ∧
      instr.labelTrue = some target ∧ index < target ∧
      Ends body shapes target block outer
  | .finish =>
    ∃ (block : Block) (outer : List Block), shape.blocks = block :: outer ∧
      block.pending = false ∧ shape.operands = block.exit ∧
      (outer = [] ∧ index + 1 = body.instructions.size ∨
        outer ≠ [] ∧ shapes (index + 1) = some ⟨block.exit, outer⟩)
  | .branch depth =>
    Resumes body shapes index shape.blocks ∧
      ∃ target block own, instr.labelTrue = some target ∧
        Lands body shapes index shape.blocks depth target block ∧
        shape.operands = block.label.reverse ++ (own ++ block.beneath)
  | .branchIf depth =>
    ∃ target block own, instr.labelTrue = some target ∧
      instr.labelFalse = some (index + 1) ∧
      Lands body shapes index shape.blocks depth target block ∧
      shape.operands = .i32 :: (block.label.reverse ++ (own ++ block.beneath)) ∧
      shapes (index + 1) = some ⟨block.label.reverse ++ (own ++ block.beneath), shape.blocks⟩
  | .branchTable targets fallback =>
    Resumes body shapes index shape.blocks ∧
      instr.labelTable.length = (targets ++ [fallback]).length ∧
      ∃ rest, shape.operands = .i32 :: rest ∧
        ∀ entry depth : Nat, (targets ++ [fallback])[entry]? = some depth →
          ∃ target block own, instr.labelTable[entry]? = some target ∧
            Lands body shapes index shape.blocks depth target block ∧
            rest = block.label.reverse ++ (own ++ block.beneath)
  | .leave =>
    Resumes body shapes index shape.blocks ∧
      ∃ rest, shape.operands = type.results.reverse ++ rest
  | .tailCall function =>
    Resumes body shapes index shape.blocks ∧
      ∃ callee rest, source.functionType function = some callee ∧
        callee.results = type.results ∧ shape.operands = callee.params.reverse ++ rest
  | .tailCallIndirect table typeIndex =>
    Resumes body shapes index shape.blocks ∧
      ∃ callee kind rest, source.types[typeIndex]? = some callee ∧
        source.tables[table]? = some kind ∧ kind.element = .funcRef ∧
        callee.results = type.results ∧
        shape.operands = .i32 :: (callee.params.reverse ++ rest)
  | op =>
    ∃ params results rest,
      Validation.Effect source (type.params ++ body.locals) params results op ∧
        shape.operands = params.reverse ++ rest ∧
        shapes (index + 1) = some ⟨results.reverse ++ rest, shape.blocks⟩

/-- The shape in front of an instruction fits its place in the block structure, and what the
instruction does. -/
structure Fits (index : Nat) (shape : Shape) (instr : Instruction) : Prop where
  depth : instr.depth + 1 = shape.blocks.length
  scope : instr.scope = shape.blocks.head?.bind Block.opener
  nested : Nested source type body shape.operands shape.blocks
  flow : OperatorFlow source type body shapes index shape instr

/-- A body is typed by the shapes in front of its instructions. -/
structure BodyTyped : Prop where
  start : shapes 0 = some ⟨[], [Block.body type.results]⟩
  fits : ∀ {index : Nat} {shape : Shape}, shapes index = some shape →
    ∃ instr, body.instructions[index]? = some instr ∧
      Fits source type body shapes index shape instr

/-- Every open block was entered on the operands that it names, and its end has a shape, whether or
not the instruction in front of it can be reached. -/
structure Delimited : Prop where
  opened : ∀ {index opener : Nat} {shape : Shape} {inner outer : List Block} {block : Block},
    shapes index = some shape → shape.blocks = inner ++ block :: outer →
    block.opener = some opener →
    ∃ instr form note, body.instructions[opener]? = some instr ∧
      instr.operator = .enter form note ∧ source.blockType note = .ok block.type ∧
      block.isLoop = (form == .loop) ∧
      shapes opener = some ⟨Validation.conditionKinds form ++ block.entry, outer⟩
  closed : ∀ {index close : Nat} {shape : Shape} {inner outer : List Block} {block : Block}
    {instr : Instruction},
    shapes index = some shape → shape.blocks = inner ++ block :: outer →
    body.instructions[close]? = some instr → instr.operator = .finish →
    instr.scope = block.opener →
    shapes close = some ⟨block.exit, block.settled :: outer⟩

end

end TwinEngine.Typing
