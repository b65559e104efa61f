import TwinEngine.Machine.Unit

/-!
Contract: the check that a loaded unit keeps its operand stack in order.

Owns: the stack effect of every instruction and the search that gives each reachable instruction
one depth.

Every instruction reachable from the first must be reached with one depth only, must find its
operands above the frame's base, and must touch local slots of the frame only. Code that cannot be
reached is not looked at. The search goes on with the next instruction first and then with the last
jump operand, and the first fault in this order is reported.
-/

namespace TwinEngine.Machine

namespace LoadedUnit

def signatureAt (unit : LoadedUnit) (signature : UInt16) : Except UnitFault FunctionType :=
  match unit.signatures[signature.toNat]? with
  | some type => .ok type
  | none => .error (.missingSignature signature.toNat)

def parcelSlots (type : FunctionType) : Parcel → Nat
  | .params => type.paramSlots
  | .results => type.resultSlots

def actionEffect (unit : LoadedUnit) : Action → Except UnitFault (Nat × Nat)
  | .trap _ | .checkInterrupt | .dataDrop _ | .elementDrop _ => .ok (0, 0)
  | .const32 _ | .memorySize | .tableSize _ => .ok (0, 1)
  | .const64 _ | .refFunc _ => .ok (0, 2)
  | .load width _ | .globalGet width _ => .ok (0, width.slots)
  | .store width _ | .pop width | .globalSet width _ => .ok (width.slots, 0)
  | .dup width => .ok (width.slots, 2 * width.slots)
  | .dropKeep drop keep => .ok (drop.toNat + keep.toNat, keep.toNat)
  | .select width => .ok (2 * width.slots + 1, width.slots)
  | .leave slots => .ok (slots.toNat, 0)
  | .numeric operator => .ok (ValueKind.slotCount operator.params, operator.result.slots)
  | .memLoad kind _ => .ok (1, kind.result.slots)
  | .memStore kind _ => .ok (1 + kind.operand.slots, 0)
  | .memoryGrow => .ok (1, 1)
  | .memoryFill | .memoryCopy | .memoryInit _ | .tableCopy .. | .tableInit .. => .ok (3, 0)
  | .tableGet _ => .ok (1, 2)
  | .tableSet _ => .ok (3, 0)
  | .tableGrow _ => .ok (3, 1)
  | .tableFill _ => .ok (4, 0)
  | .refIsNull => .ok (2, 1)
  | .call _ _ signature => do
      let type ← unit.signatureAt signature
      .ok (argSlots type, returnSlots type)
  | .callIndirect _ _ signature => do
      let type ← unit.signatureAt signature
      .ok (1 + argSlots type, returnSlots type)
  | .box parcel signature => do
      let type ← unit.signatureAt signature
      .ok (parcelSlots type parcel, 1)
  | .unbox parcel signature => do
      let type ← unit.signatureAt signature
      .ok (1, parcelSlots type parcel)

def stackEffect (unit : LoadedUnit) : Instruction Nat → Except UnitFault (Nat × Nat)
  | .plain action => unit.actionEffect action
  | .jump .always _ => .ok (0, 0)
  | .jump .zero _ | .jump .nonzero _ | .switch _ => .ok (1, 0)

def touchedLocal : Instruction Nat → Option Nat
  | .plain (.load width slot) | .plain (.store width slot) => some (slot.toNat + width.slots - 1)
  | _ => none

def checkInstruction (unit : LoadedUnit) (index : Nat) (instr : Instruction Nat)
    (depth : Nat) : Except UnitFault Nat := do
  match touchedLocal instr with
  | some slot =>
    if slot ≥ unit.localSlots then
      throw (.instruction index (.localSlot slot unit.localSlots))
  | none => pure ()
  let (pops, pushes) ← unit.stackEffect instr
  if depth < pops then
    throw (.instruction index (.underflow instr depth))
  match instr with
  | .plain (.leave slots) =>
    if slots.toNat ≠ returnSlots unit.signature then
      throw (.instruction index (.returnSlots slots.toNat (returnSlots unit.signature)))
  | _ => pure ()
  pure (depth - pops + pushes)

/-- The search in progress: the depth of every instruction reached so far, and the greatest. -/
structure Search where
  depths : Array (Option Nat)
  greatest : Nat

/-- Instructions to go on with after one, the next to be looked at first. -/
def successors (index : Nat) (instr : Instruction Nat) (depth : Nat) : List (Nat × Nat) :=
  let jumps := instr.targets.reverse.map fun target => (target, depth)
  if instr.terminates then jumps else (index + 1, depth) :: jumps

def Search.initial (unit : LoadedUnit) : Search := ⟨Array.replicate unit.code.size none, 0⟩

/-- Work off a list of instructions to enter, each with a depth. Nothing is answered if the steps
run out before the list does. -/
def search (unit : LoadedUnit) :
    Nat → List (Nat × Nat) → Search → Option (Except UnitFault Nat)
  | _, [], state => some (.ok state.greatest)
  | 0, _ :: _, _ => none
  | fuel + 1, (index, depth) :: pending, state =>
    match unit.code[index]? with
    | none => some (.error (.instruction index .pastEnd))
    | some instr =>
      match state.depths.getD index none with
      | some seen =>
        if seen = depth then unit.search fuel pending state
        else some (.error (.instruction index (.inconsistentDepth seen depth)))
      | none =>
        match unit.checkInstruction index instr depth with
        | .error fault => some (.error fault)
        | .ok after =>
          unit.search fuel (successors index instr after ++ pending)
            ⟨state.depths.setIfInBounds index (some depth), max state.greatest after⟩

/-- Enough steps for every search: one for the first instruction, and one for each way on from an
instruction. -/
def searchFuel (unit : LoadedUnit) : Nat :=
  unit.code.foldl (fun total instr => total + 1 + instr.targets.length) 1

/-! ## The search ends -/

/-- Ways on from the instructions that have no depth yet, and one step for each of these. -/
def unvisited : List (Option Nat) → List (Instruction Nat) → Nat
  | none :: depths, instr :: code => 1 + instr.targets.length + unvisited depths code
  | some _ :: depths, _ :: code => unvisited depths code
  | _, _ => 0

theorem unvisited_set (depths : List (Option Nat)) (code : List (Instruction Nat))
    (open_ : depths[index]? = some none) (found : code[index]? = some instr) (depth : Nat) :
    unvisited depths code =
      1 + instr.targets.length + unvisited (depths.set index (some depth)) code := by
  induction index generalizing depths code with
  | zero =>
    obtain ⟨_, rfl⟩ : ∃ rest, depths = none :: rest := by
      cases depths with
      | nil => cases open_
      | cons first rest => exact ⟨rest, by rw [Option.some.inj open_]⟩
    cases code with
    | nil => cases found
    | cons first code =>
      cases found
      rfl
  | succ index ih =>
    cases depths with
    | nil => cases open_
    | cons first depths =>
      cases code with
      | nil => cases found
      | cons _ code =>
        have rest := ih depths code open_ found
        cases first with
        | none | some _ =>
          simp only [unvisited, List.set_cons_succ]
          omega

theorem unvisited_replicate (code : List (Instruction Nat)) :
    1 + unvisited (List.replicate code.length none) code =
      code.foldl (fun total instr => total + 1 + instr.targets.length) 1 := by
  have shifted : ∀ start, start + unvisited (List.replicate code.length none) code =
      code.foldl (fun total instr => total + 1 + instr.targets.length) start := by
    induction code with
    | nil => exact fun _ => rfl
    | cons instr code ih =>
      intro start
      rw [List.foldl_cons, ← ih, List.length_cons, List.replicate_succ, unvisited]
      omega
  exact shifted 1

theorem length_successors (index : Nat) (instr : Instruction Nat) (depth : Nat) :
    (successors index instr depth).length ≤ 1 + instr.targets.length := by
  unfold successors
  split <;> simp [Nat.add_comm]

/-- Every step works off an entry. It adds ways on only from an instruction that had no depth, and
gives it one. -/
theorem search_isSome {unit : LoadedUnit} {fuel : Nat} {pending : List (Nat × Nat)}
    {state : Search} (size : state.depths.size = unit.code.size)
    (enough : pending.length + unvisited state.depths.toList unit.code.toList ≤ fuel) :
    (unit.search fuel pending state).isSome := by
  induction fuel generalizing pending state with
  | zero =>
    cases pending with
    | nil => rfl
    | cons => simp at enough
  | succ fuel inductionHypothesis =>
    cases pending with
    | nil => rfl
    | cons entry pending =>
      obtain ⟨index, depth⟩ := entry
      rw [List.length_cons] at enough
      unfold search
      split
      · rfl
      · rename_i instr found
        have inside : index < state.depths.size := size ▸ (Array.getElem?_eq_some_iff.mp found).1
        split
        · split
          · exact inductionHypothesis size (by omega)
          · rfl
        · rename_i unknown
          split
          · rfl
          · rename_i after _
            refine inductionHypothesis (by simpa using size) ?_
            rw [Array.getD_eq_getD_getElem?, Array.getElem?_eq_getElem inside,
              Option.getD_some] at unknown
            have open_ : state.depths.toList[index]? = some none := by simp [inside, unknown]
            have fewer := unvisited_set state.depths.toList unit.code.toList open_
              (by simpa using found) depth
            have ways := length_successors index instr after
            rw [List.length_append, Array.toList_setIfInBounds]
            omega

theorem unvisited_initial (unit : LoadedUnit) :
    [(0, 0)].length + unvisited (Search.initial unit).depths.toList unit.code.toList =
      unit.searchFuel := by
  have total := unvisited_replicate unit.code.toList
  simpa [Search.initial, searchFuel] using total

theorem search_ends (unit : LoadedUnit) :
    (unit.search unit.searchFuel [(0, 0)] (.initial unit)).isSome :=
  search_isSome Array.size_replicate (Nat.le_of_eq unit.unvisited_initial)

/-- Check a unit, and give the greatest depth of its operand stack. -/
def verify (unit : LoadedUnit) : Except Error Nat :=
  ((unit.search unit.searchFuel [(0, 0)] (.initial unit)).get unit.search_ends).mapError
    (.verification unit.function)

end LoadedUnit

end TwinEngine.Machine
