import TwinEngine.Operator

/-!
Contract: function bodies and their block structure.

Owns: instructions, which are operators with their depth, scope and branch targets, and the pass
that finds these from a list of operators.

Targets are instruction indices. A branch to a loop goes to its opener, a branch to any other block
to its `finish`, and a branch past all blocks to the last instruction of the body.
-/

namespace TwinEngine

/-- Where a block ends and where its second arm starts. -/
structure BlockExtent where
  otherwise : Option Nat
  finish : Nat
deriving DecidableEq, Repr

/-- An operator with its place in the block structure.

`depth` is the number of open blocks and `scope` the opener of the innermost; `otherwise` and
`finish` count as inside their own block. `labelTrue`, `labelFalse` and `labelTable` are the
instruction indices to which control can go. -/
structure Instruction where
  operator : Operator
  depth : Nat
  scope : Option Nat
  labelTrue : Option Nat
  labelFalse : Option Nat
  labelTable : List Nat
deriving DecidableEq, Repr

def Instruction.labels (instr : Instruction) : List Nat :=
  instr.labelTrue.toList ++ instr.labelFalse.toList ++ instr.labelTable

/-- A defined function: its locals after the parameters, and its instructions. -/
structure Body where
  locals : List ValueKind
  instructions : Array Instruction
deriving DecidableEq, Repr

namespace BlockStructure

structure OpenExtent where
  opener : Nat
  otherwise : Option Nat
deriving DecidableEq, Repr

/-- Find the extent of every block. The result has one entry an operator; entries of operators that
open no block, or whose block is never closed, stay at zero. -/
def extents : List Operator → Nat → List OpenExtent → Array BlockExtent → Array BlockExtent
  | [], _, pending, found =>
    pending.foldl (fun found block => found.setIfInBounds block.opener ⟨block.otherwise, 0⟩) found
  | operator :: rest, index, pending, found =>
    match operator, pending with
    | .enter .., _ => extents rest (index + 1) (⟨index, none⟩ :: pending) found
    | .otherwise, block :: outer =>
      extents rest (index + 1) ({ block with otherwise := some index } :: outer) found
    | .finish, block :: outer =>
      extents rest (index + 1) outer
        (found.setIfInBounds block.opener ⟨block.otherwise, index⟩)
    | _, _ => extents rest (index + 1) pending found

structure OpenBlock where
  opener : Nat
  form : BlockForm
deriving DecidableEq, Repr

structure Context where
  extents : Array BlockExtent
  last : Nat
deriving DecidableEq, Repr

def Context.extent (context : Context) (opener : Nat) : BlockExtent :=
  context.extents.getD opener ⟨none, 0⟩

def Context.target (context : Context) (opened : List OpenBlock) (depth : Nat) : Nat :=
  match opened[depth]? with
  | none => context.last
  | some block =>
    match block.form with
    | .loop => block.opener
    | .block | .conditional => (context.extent block.opener).finish

def Context.annotate (context : Context) (opened : List OpenBlock) (index : Nat)
    (operator : Operator) : Instruction :=
  let plain : Instruction :=
    { operator := operator
      depth := opened.length
      scope := opened.head?.map OpenBlock.opener
      labelTrue := none
      labelFalse := none
      labelTable := [] }
  match operator with
  | .enter .conditional _ =>
    let extent := context.extent index
    { plain with
      labelTrue := some extent.finish
      labelFalse := some ((extent.otherwise.map (· + 1)).getD extent.finish) }
  | .otherwise =>
    { plain with labelTrue := plain.scope.map fun opener => (context.extent opener).finish }
  | .branch depth => { plain with labelTrue := some (context.target opened depth) }
  | .branchIf depth =>
    { plain with
      labelTrue := some (context.target opened depth)
      labelFalse := some (index + 1) }
  | .branchTable targets fallback =>
    { plain with labelTable := (targets ++ [fallback]).map (context.target opened) }
  | _ => plain

def opened (blocks : List OpenBlock) (index : Nat) : Operator → List OpenBlock
  | .enter form _ => ⟨index, form⟩ :: blocks
  | .finish => blocks.tail
  | _ => blocks

def Context.annotateFrom (context : Context) :
    List Operator → Nat → List OpenBlock → Array Instruction → Array Instruction
  | [], _, _, done => done
  | operator :: rest, index, blocks, done =>
    context.annotateFrom rest (index + 1) (opened blocks index operator)
      (done.push (context.annotate blocks index operator))

end BlockStructure

/-- Find depth, scope and targets of every operator of a body. -/
def annotate (operators : List Operator) : Array Instruction :=
  let count := operators.length
  let extents := BlockStructure.extents operators 0 [] (Array.replicate count ⟨none, 0⟩)
  let context : BlockStructure.Context := ⟨extents, count - 1⟩
  context.annotateFrom operators 0 [] (Array.emptyWithCapacity count)

end TwinEngine
