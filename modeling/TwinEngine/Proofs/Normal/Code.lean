import TwinEngine.Proofs.Typing.Shape

/-!
Contract: normalized code as it is drawn from a typed body.

Owns: the piece of code that each instruction of a body becomes, given the shape in front of it, and
the layout of the pieces one after the other.

Does not own: that the analysis draws code in this way (`Proofs.Normal.Analysis`), or that code
drawn in this way is typed (`Proofs.Normal.Typing`).

An instruction without a shape becomes nothing but its label. A piece says which of the labels from
the body's length upwards it takes for itself.
-/

namespace TwinEngine.Normal

open Typing
open List (length_append range)

theorem eq_body_of_nested_singleton (nested : Nested source type body operands [block]) :
    block = Block.body type.results := by
  cases nested with
  | body => rfl
  | block _ around =>
    generalize block.beneath = kinds at around
    cases around

/-- A jump out of blocks leaves operands of its own behind, beneath those that it carries. -/
def Leaves (blocks : List Block) (operands : List ValueKind) (depth : Nat) (block : Block)
    (own : List ValueKind) : Prop :=
  blocks[depth]? = some block ∧ operands = block.label.reverse ++ (own ++ block.beneath)

theorem get_of_lands (lands : Lands body shapes index blocks depth target block) :
    blocks[depth]? = some block := by
  obtain ⟨_, drop, _⟩ := lands
  have first := congrArg List.head? drop
  rwa [List.head?_drop] at first

/-- The instruction that drops what a jump leaves behind, if there is anything. -/
def unwind (own carried : List ValueKind) : Option Normalized :=
  if own = [] then none else some (.dropKeep own.reverse carried)

/-- Code behind a switch, reached through a label of its own, that unwinds for a target. -/
structure Stub where
  target : Nat
  own : List ValueKind
  carried : List ValueKind
deriving DecidableEq, Repr

def stubsCode : Nat → List Stub → List Normalized
  | _, [] => []
  | label, stub :: stubs =>
    .label label :: .dropKeep stub.own.reverse stub.carried :: .goto stub.target ::
      stubsCode (label + 1) stubs

/-- A switch takes each entry of a table to its target, or to a stub for it. -/
structure Routed (blocks : List Block) (operands : List ValueKind) (base : Nat)
    (depths table routes : List Nat) (stubs : List Stub) : Prop where
  length : routes.length = table.length
  entry : ∀ {entry depth target : Nat}, depths[entry]? = some depth →
    table[entry]? = some target →
    ∃ block own route, Leaves blocks operands depth block own ∧ routes[entry]? = some route ∧
      (own = [] ∧ route = target ∨
        ∃ place, route = base + place ∧ stubs[place]? = some ⟨target, own, block.label⟩)
  stub : ∀ stub ∈ stubs, ∃ (entry depth : Nat) (block : Block), depths[entry]? = some depth ∧
    table[entry]? = some stub.target ∧ Leaves blocks operands depth block stub.own ∧
    stub.carried = block.label
  filled : ∀ stub ∈ stubs, stub.own ≠ []

def isSimple : Operator → Bool
  | .nop | .unreachable | .enter .. | .otherwise | .finish | .branch _ | .branchIf _
  | .branchTable .. | .leave | .call _ | .callIndirect .. | .tailCall _ | .tailCallIndirect ..
  | .drop | .select | .selectKind _ | .localTee _ => false
  | _ => true

/-- The code of the instruction at an index. Labels from `base` on are free before it, those from
`next` on after it. -/
def Piece (type : FunctionType) (index : Nat) (shape : Shape) (instr : Instruction)
    (base next : Nat) (code : List Normalized) : Prop :=
  match instr.operator with
  | .branchTable targets fallback =>
    ∃ rest, shape.operands = .i32 :: rest ∧
      ((∃ target depth block own, instr.labelTable = [target] ∧
          targets ++ [fallback] = [depth] ∧ Leaves shape.blocks rest depth block own ∧
          next = base ∧
          code = .drop .i32 :: ((unwind own block.label).toList ++ [.goto target])) ∨
        ∃ routes stubs,
          Routed shape.blocks rest base (targets ++ [fallback]) instr.labelTable routes
            stubs ∧
          next = base + stubs.length ∧ code = .switch routes :: stubsCode base stubs)
  | operator => next = base ∧ match operator with
    | .nop | .finish | .enter .block _ | .enter .loop _ => code = []
    | .unreachable => code = [.trap]
    | .enter .conditional _ =>
      ∃ target, instr.labelFalse = some target ∧ code = [.ifZero target]
    | .otherwise => ∃ target, instr.labelTrue = some target ∧ code = [.goto target]
    | .branch depth =>
      ∃ target block own, instr.labelTrue = some target ∧
        Leaves shape.blocks shape.operands depth block own ∧
        code = (unwind own block.label).toList ++ [.goto target]
    | .branchIf depth =>
      ∃ target block rest own, instr.labelTrue = some target ∧
        shape.operands = .i32 :: rest ∧ Leaves shape.blocks rest depth block own ∧
        code =
          match unwind own block.label with
          | none => [.ifNonzero target]
          | some unwind => [.ifZero (index + 1), unwind, .goto target]
    | .leave => code = [.leave type.results]
    | .call function => code = [.call function]
    | .callIndirect table typeIndex => code = [.callIndirect typeIndex table]
    | .tailCall function => code = [.call function, .leave type.results]
    | .tailCallIndirect table typeIndex =>
      code = [.callIndirect typeIndex table, .leave type.results]
    | .drop => ∃ kind rest, shape.operands = kind :: rest ∧ code = [.drop kind]
    | .select | .selectKind _ =>
      ∃ kind rest, shape.operands = .i32 :: kind :: kind :: rest ∧ code = [.select kind]
    | .localTee index => ∃ kind rest, shape.operands = kind :: rest ∧ code = [.localTee index kind]
    | operator => code = [.operator operator]

/-- The pieces of a body. `bases` holds the first label that is free in front of each
instruction. -/
structure Layout (type : FunctionType) (body : Body) (shapes : Nat → Option Shape) where
  pieces : Nat → List Normalized
  bases : Nat → Nat
  start : bases 0 = body.instructions.size
  live : ∀ {index : Nat} {shape : Shape} {instr : Instruction},
    shapes index = some shape → body.instructions[index]? = some instr →
    Piece type index shape instr (bases index) (bases (index + 1)) (pieces index)
  dead : ∀ {index : Nat}, index < body.instructions.size → shapes index = none →
    pieces index = [] ∧ bases (index + 1) = bases index

/-! ## Parts one after the other -/

section Parts

variable {α : Type} (part : Nat → List α)

theorem flatMap_range_succ (index : Nat) :
    (range (index + 1)).flatMap part = (range index).flatMap part ++ part index := by
  simp [List.range_succ, List.flatMap_append]

/-- A part stands behind those in front of it. -/
theorem getElem?_flatMap_range (rest : List α) (inside : index < count)
    (within : offset < (part index).length) :
    ((range count).flatMap part ++ rest)[((range index).flatMap part).length + offset]? =
      (part index)[offset]? := by
  obtain ⟨_, total⟩ := Nat.exists_eq_add_of_le (Nat.succ_le_of_lt inside)
  rw [total, List.range_add, List.flatMap_append, Nat.succ_eq_add_one, flatMap_range_succ,
    List.append_assoc, List.append_assoc, List.getElem?_append_right (by omega),
    Nat.add_sub_cancel_left, List.getElem?_append_left within]

/-- Every element stands in some part. -/
theorem exists_of_lt_flatMap_range (count place : Nat)
    (inside : place < ((range count).flatMap part).length) :
    ∃ index offset, index < count ∧ offset < (part index).length ∧
      place = ((range index).flatMap part).length + offset := by
  induction count with
  | zero => simp at inside
  | succ count ih =>
    by_cases before : place < ((range count).flatMap part).length
    · obtain ⟨index, offset, _, within, same⟩ := ih before
      exact ⟨index, offset, by omega, within, same⟩
    · rw [flatMap_range_succ, length_append] at inside
      exact ⟨count, place - ((range count).flatMap part).length, by omega, by omega, by omega⟩

theorem length_flatMap_range_eq {β : Type} (other : Nat → List β) (count : Nat)
    (same : ∀ index, index < count → (part index).length = (other index).length) :
    ((range count).flatMap part).length = ((range count).flatMap other).length := by
  induction count with
  | zero => rfl
  | succ count ih =>
    rw [flatMap_range_succ, flatMap_range_succ, length_append, length_append,
      ih fun index _ => same index (by omega), same count (by omega)]

end Parts

def mark (body : Body) (index : Nat) : List Normalized :=
  if (Analysis.labelMarks body.instructions).getD index false then [.label index] else []

namespace Layout

variable {type : FunctionType} {body : Body} {shapes : Nat → Option Shape}

/-- What stands for an instruction, its label included. -/
def part (layout : Layout type body shapes) (index : Nat) : List Normalized :=
  mark body index ++ layout.pieces index

def before (layout : Layout type body shapes) (index : Nat) : List Normalized :=
  (List.range index).flatMap layout.part

/-- The whole code: the parts, and the return at the end of the body. -/
def code (layout : Layout type body shapes) : List Normalized :=
  layout.before body.instructions.size ++ [.leave type.results]

/-- Where the part of an instruction starts. -/
def place (layout : Layout type body shapes) (index : Nat) : Nat := (layout.before index).length

variable (layout : Layout type body shapes)

include layout

theorem before_succ (index : Nat) :
    layout.before (index + 1) = layout.before index ++ layout.part index :=
  flatMap_range_succ layout.part index

theorem place_succ (index : Nat) :
    layout.place (index + 1) = layout.place index + (layout.part index).length := by
  simp [place, before_succ]

theorem code_get_part (inside : index < body.instructions.size)
    (within : offset < (layout.part index).length) :
    layout.code[layout.place index + offset]? = (layout.part index)[offset]? :=
  getElem?_flatMap_range layout.part _ inside within

/-- The last instruction is the return. -/
theorem code_get_end :
    layout.code[layout.place body.instructions.size]? = some (.leave type.results) := by
  simp [code, place]

end Layout

end TwinEngine.Normal
