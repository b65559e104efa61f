import Mathlib.Data.Nat.Bitwise
import TwinEngine.Proofs.Engine.IndirectCalls
import TwinEngine.Proofs.Machine.SlotCoding
import TwinEngine.Proofs.World.Residence

/-!
Contract: function references and the instances that they stand for.

Owns: which function a call through a table reaches with a given reference, and that this is the
function for which the reference was made as long as its instance has not been dropped.

A reference names an instance by its number. The number of an instance that a failed start function
dropped is given to the next instance that is made, so a reference that outlives its instance may
come to name another one.
-/

namespace TwinEngine

/-! ## Calls through tables -/

/-- A call ends with a trap or is one of the function that a reference names, of an instance that is
there. -/
def Follows {Move : Type} (callee : Move → Option (Nat × Nat)) (store : Store)
    (reference : FuncRef) (result : Except Trap Move) : Prop :=
  (∃ trap, result = .error trap) ∨
    reference.owner.toNat < store.instances.size ∧ ∃ move, result = .ok move ∧
      callee move = some (reference.owner.toNat, reference.index.toNat)

variable {store : Store} {reference : FuncRef} {type : FunctionType} {live : Instance}
  {entries : Table}

theorem Store.lt_of_functionType (typed : store.functionType reference = .ok type) :
    reference.owner.toNat < store.instances.size := by
  rw [Store.typeOf_eq] at typed
  obtain ⟨_, found, _⟩ := Option.bind_eq_some_iff.mp typed
  exact lt_size found

theorem Follows.map {Move : Type} {callee : Move → Option (Nat × Nat)} {result : Except Trap Move}
    (follows : Follows callee store reference result) :
    (∃ trap, result.map callee = .error trap) ∨ reference.owner.toNat < store.instances.size ∧
      result.map callee = .ok (some (reference.owner.toNat, reference.index.toNat)) := by
  rcases follows with ⟨trap, rfl⟩ | ⟨inside, _, rfl, called⟩
  · exact .inl ⟨trap, rfl⟩
  · exact .inr ⟨inside, congrArg Except.ok called⟩

namespace Interpreted

theorem follows_call (scene : Scene) (frame : Frame) (tail : Bool)
    (inside : scene.owner < scene.store.instances.size)
    (own : reference.owner.toNat = scene.owner) :
    Follows (Move.callee scene.owner) scene.store reference
      (call scene frame reference.index.toNat tail).1 := by
  simp only [call, checkInterrupt]
  repeat' split
  all_goals
    first
    | exact .inl ⟨_, rfl⟩
    | exact .inr ⟨own ▸ inside, _, rfl, by rw [own]; rfl⟩

theorem eq_of_indirectTarget (found : scene.store.instances[scene.owner]? = some live)
    (here : live.tables[table]? = some entries)
    (held : entries.entries[element]? = some reference.payload)
    (reached : indirectTarget scene table element = .ok callee) : callee = reference := by
  have inside := lt_size held
  simp only [indirectTarget, Store.look, found, Instance.table, here, Table.size, Table.getValue,
    Table.get, held, bind, Except.bind, Nat.not_le.mpr inside, if_false, Except.map] at reached
  cases kind : entries.element <;> simp only [kind, Value.ofPayload] at reached
  case funcRef =>
    split at reached
    · rename_i same
      split at same
      · cases same
      · cases same
        cases reached
        exact FuncRef.ofPayload_payload reference
    · cases reached
  all_goals cases reached

theorem follows_callIndirect (scene : Scene) (frame : Frame) (table typeIndex : Nat) (tail : Bool)
    (found : scene.store.instances[scene.owner]? = some live)
    (here : live.tables[table]? = some entries)
    (held : entries.entries[(popWord scene.operands).1.toNat]? = some reference.payload) :
    Follows (Move.callee scene.owner) scene.store reference
      (callIndirect scene frame table typeIndex tail).1 := by
  simp only [callIndirect]
  split
  · exact .inl ⟨_, rfl⟩
  · split
    · exact .inl ⟨_, rfl⟩
    · rename_i callee reached
      obtain rfl := eq_of_indirectTarget found here held reached
      split
      · rename_i own
        split
        · exact follows_call { scene with operands := (popWord scene.operands).2 } frame tail
            (lt_size found) own
        · exact .inl ⟨_, rfl⟩
      · split
        · exact .inl ⟨_, rfl⟩
        · rename_i typed
          split
          · simp only [checkInterrupt]
            split
            · exact .inl ⟨_, rfl⟩
            · exact .inr ⟨Store.lt_of_functionType typed, _, rfl, rfl⟩
          · exact .inl ⟨_, rfl⟩

end Interpreted

namespace Compiled

theorem of_indirectTarget (found : scene.store.instances[scene.owner]? = some live)
    (here : live.tables[table]? = some entries)
    (held : entries.entries[element]? = some reference.payload)
    (reached : indirectTarget scene typeIndex table element type = .ok callee) :
    callee = reference ∧ reference.owner.toNat < scene.store.instances.size := by
  have inside := lt_size held
  simp only [indirectTarget, Store.look, found, Instance.table, here, Table.size, Table.get, held,
    bind, Except.bind, Nat.not_le.mpr inside, if_false, FuncRef.ofPayload_payload] at reached
  split at reached
  · cases reached
  · by_cases own : reference.owner.toNat = scene.owner
    · rw [if_pos own] at reached
      refine ⟨?_, own ▸ lt_size found⟩
      split at reached <;> cases reached
      rfl
    · rw [if_neg own] at reached
      obtain ⟨_, compared, reached⟩ := bind_eq_ok.mp reached
      obtain ⟨_, typed, _⟩ := map_eq_ok.mp compared
      refine ⟨?_, Store.lt_of_functionType typed⟩
      split at reached <;> cases reached
      rfl

theorem follows_callIndirect (scene : Scene) (frame : Frame) (typeIndex table : Nat)
    (signature : UInt16) (found : scene.store.instances[scene.owner]? = some live)
    (here : live.tables[table]? = some entries)
    (held : entries.entries[(pop scene.operands).1.toNat]? = some reference.payload) :
    Follows (Move.callee scene.owner) scene.store reference
      (callIndirect scene frame typeIndex table signature).1 := by
  simp only [callIndirect]
  split
  · exact .inl ⟨_, rfl⟩
  · split
    · exact .inl ⟨_, rfl⟩
    · rename_i callee reached
      obtain ⟨rfl, inside⟩ := of_indirectTarget found here held reached
      split
      · rename_i own
        exact .inr ⟨inside, _, rfl, by rw [own]; rfl⟩
      · split
        · exact .inl ⟨_, rfl⟩
        · exact .inr ⟨inside, _, rfl, rfl⟩

end Compiled

def Module.constants (source : Module) : List ConstExpr :=
  source.globals.toList.map Global.init ++ source.tables.toList.filterMap TableType.init ++
    source.elements.toList.flatMap ElementSegment.items

namespace World

/-- What the running code calls next: the number of an instance, and a function of it. -/
def calls (world : World) : Except Trap (Option (Nat × Nat)) :=
  let { owner, program, boxes, slots, payloads, controls } := world.thread
  match world.control with
  | .unit frame =>
    let dispatch := (program.map Program.dispatch).getD #[]
    (Compiled.step ⟨owner, dispatch, boxes, slots, world.store⟩ frame).1.map
      (Compiled.Move.callee owner)
  | .body frame =>
    (Interpreted.step ⟨owner, payloads, controls, world.store⟩ frame).1.map
      (Interpreted.Move.callee owner)
  | _ => .ok none

def operator? (world : World) : Option Operator :=
  match world.control with
  | .body frame => frame.body.instructions[frame.position]?.map Instruction.operator
  | _ => none

def instruction? (world : World) : Option (Machine.Instruction Nat) :=
  match world.control with
  | .unit frame => frame.unit.code[frame.position]?
  | _ => none

/-- A reference to a function of an instance is made: by the code that runs, or because a constant
expression of the instance asks for it. -/
inductive Produces (world : World) (id function : Nat) : Prop where
  | interpreted (owner : world.thread.owner = id)
      (asks : world.operator? = some (.refFunc function))
  | compiled {operand : UInt32} (owner : world.thread.owner = id)
      (asks : world.instruction? = some (.plain (.refFunc operand)))
      (names : operand.toNat = function)
  | constant {live : Instance} (found : world.store.instances[id]? = some live)
      (asks : .refFunc function ∈ live.source.constants)

/-- The running code is about to call an element of a table. -/
inductive AtTable (world : World) (table : Nat) : Nat → Prop where
  | interpreted {typeIndex : Nat}
      (calls : world.operator? = some (.callIndirect table typeIndex) ∨
        world.operator? = some (.tailCallIndirect table typeIndex)) :
      AtTable world table (Interpreted.popWord world.thread.payloads).1.toNat
  | compiled {typeIndex operand : UInt32} {signature : UInt16}
      (calls : world.instruction? = some (.plain (.callIndirect typeIndex operand signature)))
      (names : operand.toNat = table) :
      AtTable world table (Compiled.pop world.thread.slots).1.toNat

def CallsThrough (world : World) (reference : FuncRef) : Prop :=
  ∃ live table entries element, world.store.instances[world.thread.owner]? = some live ∧
    live.tables[table]? = some entries ∧ entries.entries[element]? = some reference.payload ∧
    world.AtTable table element

variable {world : World} {id : Nat}

theorem exists_of_operator {operator : Operator} (next : world.operator? = some operator) :
    ∃ frame instr, world.control = .body frame ∧
      frame.body.instructions[frame.position]? = some instr ∧ instr.operator = operator := by
  unfold operator? at next
  split at next
  · obtain ⟨instr, standing, same⟩ := Option.map_eq_some_iff.mp next
    exact ⟨_, instr, by assumption, standing, same⟩
  · cases next

theorem exists_of_instruction {instr : Machine.Instruction Nat}
    (next : world.instruction? = some instr) : ∃ frame, world.control = .unit frame ∧
      frame.unit.code[frame.position]? = some instr := by
  unfold instruction? at next
  split at next
  · exact ⟨_, by assumption, next⟩
  · cases next

/-- A moment passes and no start function fails that takes the instance with a number away. -/
def Spares (id : Nat) (before after : World) : Prop :=
  Next before after ∧
    ∀ failed ≤ id, .starting failed ∈ before.stack → after.store.instances.size ≠ failed

/-- A moment passes and the instance with a number stays. -/
def Keeps (id : Nat) (before after : World) : Prop :=
  Next before after ∧ ∃ live later, before.store.instances[id]? = some live ∧
    after.store.instances[id]? = some later ∧ live.Continues later

theorem size_le_of_reaches (reaches : Reaches before after)
    (room : before.store.instances.size ≤ maxInstances) :
    after.store.instances.size ≤ maxInstances := by
  induction reaches with
  | refl => exact room
  | tail _ next ih => exact (evolves_next next).size_le ih

/-- Only a failing start function takes an instance away. -/
theorem keeps_of_spares (spared : Relation.ReflTransGen (Spares id) first later)
    (inside : id < first.store.instances.size) :
    Relation.ReflTransGen (Keeps id) first later ∧ id < later.store.instances.size := by
  induction spared with
  | refl => exact ⟨.refl, inside⟩
  | tail _ step ih =>
    obtain ⟨kept, still⟩ := ih
    obtain ⟨next, spares⟩ := step
    obtain ⟨live, found⟩ : ∃ live, _ = some live := ⟨_, Array.getElem?_eq_getElem still⟩
    rcases (evolves_next next).stays_or_falls found with ⟨later, here, continues⟩ | fell
    · exact ⟨kept.tail ⟨next, live, later, found, here, continues⟩, lt_size here⟩
    · obtain ⟨failed, low, waits, size⟩ := fell
      exact absurd size (spares failed low waits)

theorem Produces.lt_size (produced : world.Produces id function) (resident : world.Resident) :
    id < world.store.instances.size := by
  have housed := resident.runs
  unfold Housed at housed
  cases produced with
  | interpreted owner asks =>
    obtain ⟨frame, _, runs, _⟩ := exists_of_operator asks
    rw [runs] at housed
    obtain ⟨live, found, _⟩ := housed
    exact owner ▸ (Array.getElem?_eq_some_iff.mp found).1
  | compiled owner asks =>
    obtain ⟨frame, runs, _⟩ := exists_of_instruction asks
    rw [runs] at housed
    obtain ⟨_, _, live, found, _⟩ := housed
    exact owner ▸ (Array.getElem?_eq_some_iff.mp found).1
  | constant found => exact (Array.getElem?_eq_some_iff.mp found).1

theorem CallsThrough.calls (through : world.CallsThrough reference) :
    (∃ trap, world.calls = .error trap) ∨
      reference.owner.toNat < world.store.instances.size ∧
        world.calls = .ok (some (reference.owner.toNat, reference.index.toNat)) := by
  obtain ⟨_, table, _, _, found, here, held, standing⟩ := through
  cases standing with
  | @interpreted typeIndex calls =>
    have follows (frame : Interpreted.Frame) (tail : Bool) := Interpreted.follows_callIndirect
      ⟨_, world.thread.payloads, world.thread.controls, world.store⟩ frame table typeIndex tail
      found here held
    rcases calls with calls | calls
    all_goals
      obtain ⟨frame, _, runs, next, operator⟩ := exists_of_operator calls
      simp only [World.calls, runs, Interpreted.step, next, Interpreted.act, operator]
      exact (follows _ _).map
  | compiled calls names =>
    obtain ⟨frame, runs, next⟩ := exists_of_instruction calls
    subst names
    simp only [World.calls, runs, Compiled.step, next, Compiled.act]
    exact (Compiled.follows_callIndirect ⟨_, _, _, world.thread.slots, world.store⟩ _ _ _ _ found
      here held).map

/-- A reference that was made for a function of an instance is later called through a table. The
call traps or is one of that function of the instance with that number, which is the very instance
that the reference was made for, unless a start function failed meanwhile and took it away. -/
theorem calls_of_reference {limits : StoreLimits} {first later : World} {id function : Nat}
    (reached : Reaches (idle (Store.withLimits limits)) first)
    (produced : first.Produces id function) (narrow : function < 2 ^ 32)
    (onward : Reaches first later)
    (through : later.CallsThrough ⟨UInt32.ofNat id, UInt32.ofNat function⟩) :
    (∃ trap, later.calls = .error trap) ∨
      later.calls = .ok (some (id, function)) ∧ id < later.store.instances.size ∧ later.Housed ∧
        (Relation.ReflTransGen (Spares id) first later →
          Relation.ReflTransGen (Keeps id) first later) := by
  have resident := (resident_idle _).reaches reached
  have inside := produced.lt_size resident
  have room : first.store.instances.size ≤ maxInstances :=
    size_le_of_reaches reached (Nat.zero_le _)
  have numbered : (UInt32.ofNat id).toNat = id :=
    UInt32.toNat_ofNat_of_lt' (Nat.lt_of_lt_of_le inside room)
  have indexed : (UInt32.ofNat function).toNat = function := UInt32.toNat_ofNat_of_lt' narrow
  rcases through.calls with trapped | ⟨there, called⟩
  · exact .inl trapped
  · rw [numbered] at there
    rw [numbered, indexed] at called
    exact .inr ⟨called, there, (resident.reaches onward).runs,
      fun spared => (keeps_of_spares spared inside).1⟩

def withInstance (source : Module) : World :=
  startInstance (Store.withLimits {}) {} [] [] source {} (.ok .interpreted)

def callAfter (source : Module) (function steps : Nat) : World :=
  step^[steps] ⟨(withInstance source).store, {}, .call 0 function [], [], []⟩

theorem calls_of_reference_tableCall : ∃ source first later,
    Module.parse tableCallBytes = .ok source ∧
      Reaches (idle (Store.withLimits {})) first ∧ first.Produces 0 0 ∧ Reaches first later ∧
      later.CallsThrough ⟨0, 0⟩ ∧ later.calls = .ok (some (0, 0)) ∧ later.Housed ∧
        Relation.ReflTransGen (Keeps 0) first later := by
  obtain ⟨source, parsed, ended, constants, runs, goes, standing, element, held⟩ :=
    exists_ok (Module.parse tableCallBytes) (fun source =>
      (withInstance source).result?.isSome ∧
      ((withInstance source).store.instances[0]?.map fun live => live.source.constants) =
        some [.refFunc 0] ∧
      (∀ steps : Nat, steps < 3 → (callAfter source 1 steps).result? = none ∧
        (callAfter source 1 steps).store.instances.size = 1) ∧
      (callAfter source 1 2).calls.toOption = some (some (0, 0)) ∧
      (callAfter source 1 2).operator? = some (.callIndirect 0 0) ∧
      (Interpreted.popWord (callAfter source 1 2).thread.payloads).1.toNat = 0 ∧
      ((callAfter source 1 2).store.instances[(callAfter source 1 2).thread.owner]?.bind fun live =>
        live.tables[0]?.bind fun entries => entries.entries[0]?) = some 0) (by decide +kernel)
  obtain ⟨live, found, constants⟩ := Option.map_eq_some_iff.mp constants
  simp only [Option.bind_eq_some_iff] at held
  obtain ⟨owner, here, entries, table, entry⟩ := held
  have spared : ∀ steps < 3,
      Relation.ReflTransGen (Spares 0) (withInstance source) (callAfter source 1 steps) := by
    intro steps
    induction steps with
    | zero =>
      exact fun small => .single ⟨.call ended 0 1 [], fun failed low _ => by
        rw [Nat.le_zero.mp low, (runs 0 small).2]
        exact Nat.one_ne_zero⟩
    | succ steps ih =>
      intro small
      have next : Next (callAfter source 1 steps) (callAfter source 1 (steps + 1)) := by
        rw [callAfter, callAfter, Function.iterate_succ_apply']
        exact .step (runs steps (by omega)).1
      exact (ih (by omega)).tail ⟨next, fun failed low _ => by
        rw [Nat.le_zero.mp low, (runs _ small).2]
        exact Nat.one_ne_zero⟩
  have reached : Reaches (idle (Store.withLimits {})) (withInstance source) :=
    .single (.instantiate rfl source {} .interpreted)
  have onward : Reaches (withInstance source) (callAfter source 1 2) :=
    Relation.ReflTransGen.mono (fun _ _ spares => spares.1) _ _ (spared 2 (by decide))
  have produced : (withInstance source).Produces 0 0 :=
    .constant found (by rw [constants]; exact List.mem_singleton_self _)
  have through : (callAfter source 1 2).CallsThrough ⟨0, 0⟩ :=
    ⟨owner, 0, entries, _, here, table, by rw [element]; exact entry,
      .interpreted (.inl standing)⟩
  refine ⟨source, _, _, parsed, reached, produced, onward, through, ?_⟩
  rcases calls_of_reference reached produced (by decide) onward through with
    ⟨trap, trapped⟩ | ⟨called, _, housed, keeps⟩
  · rw [trapped] at goes
    cases goes
  · exact ⟨called, housed, keeps (spared 2 (by decide))⟩

end World

end TwinEngine
