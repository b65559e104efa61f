import TwinEngine.Proofs.Machine.Verifier

/-!
Contract: what a frame of a unit holds in front of each of its instructions.

Owns: the height of a frame's operands together with the box that it holds, what actions do to them,
and that a unit in which they are known for every instruction passes the check.

A box travels from a caller to the prologue of its callee and from a return back to the caller, and
nothing is called meanwhile. So a frame holds at most one box: on top of its operands, beneath the
element index of a call through a table, or in its first local.
-/

namespace TwinEngine.Machine

/-- What a frame holds: plain operands of a depth, a box of some slots above them or right beneath
one more operand, or a box in its first local and no operands. -/
inductive Stance where
  | plain (depth : Nat)
  | boxed (slots depth : Nat)
  | beneath (slots depth : Nat)
  | arrived (slots : Nat)
deriving DecidableEq, Repr

namespace Stance

/-- Height of the operands. -/
def depth : Stance → Nat
  | .plain depth => depth
  | .boxed _ depth => depth + 1
  | .beneath _ depth => depth + 2
  | .arrived _ => 0

/-- What the first instruction of a unit finds. -/
def entry (type : FunctionType) : Stance :=
  match Convention.of type with
  | .slots => .plain 0
  | .boxed => .arrived type.paramSlots

def calling (type : FunctionType) (depth : Nat) : Stance :=
  match Convention.of type with
  | .slots => .plain (depth + type.paramSlots)
  | .boxed => .boxed type.paramSlots depth

/-- Arguments of a call through a table, and the element index above them. -/
def choosing (type : FunctionType) (depth : Nat) : Stance :=
  match Convention.of type with
  | .slots => .plain (depth + type.paramSlots + 1)
  | .boxed => .beneath type.paramSlots depth

def returning (type : FunctionType) (depth : Nat) : Stance :=
  if type.results.length > 1 then .boxed type.resultSlots depth
  else .plain (depth + type.resultSlots)

@[simp] theorem depth_entry (type : FunctionType) : (entry type).depth = 0 := by
  unfold entry
  split <;> rfl

@[simp] theorem depth_calling (type : FunctionType) (depth : Nat) :
    (calling type depth).depth = depth + argSlots type := by
  unfold calling argSlots
  cases Convention.of type <;> rfl

@[simp] theorem depth_choosing (type : FunctionType) (depth : Nat) :
    (choosing type depth).depth = depth + argSlots type + 1 := by
  unfold choosing argSlots
  cases Convention.of type <;> rfl

@[simp] theorem depth_returning (type : FunctionType) (depth : Nat) :
    (returning type depth).depth = depth + returnSlots type := by
  unfold returning returnSlots
  split <;> rfl

end Stance

/-! ## Steps -/

def Moves (unit : LoadedUnit) (action : Action) (before after : Stance) : Prop :=
  match action with
  | .trap _ | .checkInterrupt => after = before
  | .load .one slot =>
    slot.toNat < unit.localSlots ∧
      match before with
      | .plain depth => after = .plain (depth + 1)
      | .boxed slots depth => after = .beneath slots depth
      | .beneath .. => False
      | .arrived slots => slot = 0 ∧ after = .boxed slots 0
  | .call _ _ signature =>
    ∃ type depth, unit.signatures[signature.toNat]? = some type ∧
      before = .calling type depth ∧ after = .returning type depth
  | .callIndirect _ _ signature =>
    ∃ type depth, unit.signatures[signature.toNat]? = some type ∧
      before = .choosing type depth ∧ after = .returning type depth
  | .box parcel signature =>
    ∃ type depth, unit.signatures[signature.toNat]? = some type ∧
      before = .plain (depth + LoadedUnit.parcelSlots type parcel) ∧
      after = .boxed (LoadedUnit.parcelSlots type parcel) depth
  | .unbox parcel signature =>
    ∃ type depth, unit.signatures[signature.toNat]? = some type ∧
      before = .boxed (LoadedUnit.parcelSlots type parcel) depth ∧
      after = .plain (depth + LoadedUnit.parcelSlots type parcel)
  | .leave slots =>
    slots.toNat = returnSlots unit.signature ∧
      ∃ depth, before = .returning unit.signature depth ∧ after = .plain depth
  | action =>
    unit.Touches (.plain action) ∧ ∃ pops pushes depth,
      unit.actionEffect action = .ok (pops, pushes) ∧ before = .plain (depth + pops) ∧
      after = .plain (depth + pushes)

def Steps (unit : LoadedUnit) (before after : Stance) : Instruction Nat → Prop
  | .plain action => Moves unit action before after
  | .jump .always _ => ∃ depth, before = .plain depth ∧ after = .plain depth
  | .jump .zero _ | .jump .nonzero _ => ∃ depth, before = .plain (depth + 1) ∧ after = .plain depth
  | .switch targets => targets ≠ [] ∧ ∃ depth, before = .plain (depth + 1) ∧ after = .plain depth

/-- What the frames of a unit hold in front of the instructions that can be reached. -/
structure Tracked (unit : LoadedUnit) (stances : Nat → Option Stance) : Prop where
  start : stances 0 = some (.entry unit.signature)
  step : ∀ {index : Nat} {stance : Stance}, stances index = some stance →
    ∃ instr after, unit.code[index]? = some instr ∧
      Steps unit stance after instr ∧
      (∀ target ∈ instr.targets, stances target = some after) ∧
      (instr.terminates = false → stances (index + 1) = some after)

/-! ## The check -/

namespace LoadedUnit

variable {unit : LoadedUnit}

theorem touches_of_none (absent : touchedLocal instr = none) : unit.Touches instr := by
  intro _ touched
  cases absent.symm.trans touched

theorem checkInstruction_eq_ok (touches : unit.Touches instr)
    (effect : unit.stackEffect instr = .ok (pops, pushes)) (enough : pops ≤ depth)
    (leaves : ∀ slots, instr = .plain (.leave slots) → slots.toNat = returnSlots unit.signature) :
    unit.checkInstruction index instr depth = .ok (depth - pops + pushes) :=
  checkInstruction_eq_ok_iff.mpr ⟨touches, ⟨pops, pushes, effect, enough, rfl⟩, leaves⟩

end LoadedUnit

section Check

open LoadedUnit

variable {unit : LoadedUnit} {before after : Stance}

theorem signatureAt_eq {signature : UInt16}
    (found : unit.signatures[signature.toNat]? = some type) :
    unit.signatureAt signature = .ok type := by
  rw [signatureAt, found]

/-- Actions that do not return have an effect that agrees with what they do to a frame. -/
theorem Moves.effect (moves : Moves unit action before after)
    (stays : ∀ slots, action ≠ .leave slots) :
    unit.Touches (.plain action) ∧ ∃ pops pushes, unit.actionEffect action = .ok (pops, pushes) ∧
      pops ≤ before.depth ∧ before.depth - pops + pushes = after.depth := by
  unfold Moves at moves
  split at moves
  · subst moves
    exact ⟨touches_of_none rfl, 0, 0, rfl, Nat.zero_le _, rfl⟩
  · subst moves
    exact ⟨touches_of_none rfl, 0, 0, rfl, Nat.zero_le _, rfl⟩
  · obtain ⟨inside, moves⟩ := moves
    refine ⟨fun _ touched => ?_, 0, 1, rfl, Nat.zero_le _, ?_⟩
    · cases touched
      exact inside
    · split at moves
      · subst moves
        rfl
      · subst moves
        rfl
      · cases moves
      · rw [moves.2]
        rfl
  · obtain ⟨type, depth, found, rfl, rfl⟩ := moves
    refine ⟨touches_of_none rfl, argSlots type, returnSlots type, ?_, ?_, ?_⟩
    · simp [actionEffect, signatureAt_eq found, bind, Except.bind]
    · simp
    · simp
  · obtain ⟨type, depth, found, rfl, rfl⟩ := moves
    refine ⟨touches_of_none rfl, 1 + argSlots type, returnSlots type, ?_, ?_, ?_⟩
    · simp [actionEffect, signatureAt_eq found, bind, Except.bind]
    · simp
      omega
    · simp
      omega
  · rename_i parcel signature
    obtain ⟨type, depth, found, rfl, rfl⟩ := moves
    refine ⟨touches_of_none rfl, parcelSlots type parcel, 1, ?_, ?_, ?_⟩
    · simp [actionEffect, signatureAt_eq found, bind, Except.bind]
    · simp [Stance.depth]
    · simp [Stance.depth]
  · rename_i parcel signature
    obtain ⟨type, depth, found, rfl, rfl⟩ := moves
    refine ⟨touches_of_none rfl, 1, parcelSlots type parcel, ?_, ?_, ?_⟩
    · simp [actionEffect, signatureAt_eq found, bind, Except.bind]
    · simp [Stance.depth]
    · simp [Stance.depth]
  · exact absurd rfl (stays _)
  · obtain ⟨touches, pops, pushes, depth, effect, rfl, rfl⟩ := moves
    exact ⟨touches, pops, pushes, effect, by simp [Stance.depth], by simp [Stance.depth]⟩

theorem Steps.check (steps : Steps unit before after instr) :
    unit.checkInstruction index instr before.depth = .ok after.depth := by
  have jumps : ∀ {pops}, unit.stackEffect instr = .ok (pops, 0) →
      (∀ action, instr ≠ .plain action) → before.depth = after.depth + pops →
      unit.checkInstruction index instr before.depth = .ok after.depth := by
    intro pops effect jump same
    have untouched : unit.Touches instr := by
      intro _ touched
      cases instr with
      | plain action => exact absurd rfl (jump action)
      | jump => cases touched
      | switch => cases touched
    rw [checkInstruction_eq_ok untouched effect (by omega)
      (fun slots leaves => absurd leaves (jump _)), same]
    simp
  cases instr with
  | plain action =>
    by_cases leaves : ∃ slots, action = .leave slots
    · obtain ⟨slots, rfl⟩ := leaves
      obtain ⟨same, depth, rfl, rfl⟩ := steps
      rw [checkInstruction_eq_ok (touches_of_none rfl) rfl (by simp; omega)]
      · rw [same, Stance.depth_returning]
        simp [Stance.depth]
      · intro _ equal
        cases equal
        exact same
    · obtain ⟨touches, pops, _, effect, enough, total⟩ :=
        Moves.effect steps fun slots same => leaves ⟨slots, same⟩
      rw [checkInstruction_eq_ok touches effect enough, total]
      intro slots same
      cases same
      exact absurd ⟨slots, rfl⟩ leaves
  | jump condition =>
    cases condition with
    | always | zero | nonzero =>
      obtain ⟨depth, rfl, rfl⟩ := steps
      exact jumps rfl (fun _ absurd => nomatch absurd) rfl
  | switch =>
    obtain ⟨_, depth, rfl, rfl⟩ := steps
    exact jumps rfl (fun _ absurd => nomatch absurd) rfl

theorem Tracked.consistent (tracked : Tracked unit stances) :
    Consistent unit fun index => (stances index).map Stance.depth := by
  refine ⟨by simp [tracked.start], ?_⟩
  intro index depth known
  obtain ⟨_, here, rfl⟩ := Option.map_eq_some_iff.mp known
  obtain ⟨instr, after, found, steps, lands, goes⟩ := tracked.step here
  refine ⟨instr, after.depth, found, steps.check, ?_⟩
  intro next later member
  have landing : (next, later) ∈ instr.targets.reverse.map (fun target => (target, after.depth)) →
      (stances next).map Stance.depth = some later := by
    intro jumps
    obtain ⟨target, listed, same⟩ := List.mem_map.mp jumps
    obtain ⟨rfl, rfl⟩ := Prod.mk.inj same
    rw [lands target (List.mem_reverse.mp listed)]
    rfl
  unfold successors at member
  by_cases terminates : instr.terminates
  · rw [if_pos terminates] at member
    exact landing member
  · rw [if_neg terminates] at member
    rcases List.mem_cons.mp member with same | jumps
    · cases same
      rw [goes (by simpa using terminates)]
      rfl
    · exact landing jumps

/-- A unit of which it is known what its frames hold passes the check. -/
theorem Tracked.verify_eq_ok (tracked : Tracked unit stances) :
    ∃ greatest, unit.verify = .ok greatest :=
  LoadedUnit.verify_eq_ok tracked.consistent

end Check

end TwinEngine.Machine
