import TwinEngine.Proofs.Engine.Actions
import TwinEngine.Proofs.Lowering.Links

/-!
Contract: units keep to the depths that the check of their code finds.

Owns: what it means that a frame of a unit stands in front of an instruction as the check says, or
waits for results, and that an instruction leads from the one to the other.

Does not own: what happens between a call and its return (`Proofs.World.Soundness`).

The slots of a frame lie above those of the frames beneath it. As long as a box is in use, nothing
is called; so there is one box at most, and its handle is zero.
-/

namespace TwinEngine

open Machine hiding Instruction
open Stack
open List (length_append length_reverse length_drop length_take append_assoc)
open Convention (of)

/-! ## Boxes -/

namespace Machine.Boxes

/-- No box is in use. -/
def Idle (boxes : Boxes) : Prop := boxes = ⟨#[], []⟩ ∨ boxes = ⟨#[none], [0]⟩

/-- The one box that is in use holds slots. -/
def Holds (boxes : Boxes) (slots : List UInt32) : Prop := boxes = ⟨#[some slots], []⟩

variable {boxes : Boxes} {slots : List UInt32}

theorem idle_empty : Idle .empty := .inl rfl

theorem Idle.put (idle : boxes.Idle) (slots : List UInt32) :
    ∃ after, boxes.put slots = (0, after) ∧ after.Holds slots := by
  rcases idle with rfl | rfl <;> exact ⟨_, rfl, rfl⟩

theorem Holds.take (holds : boxes.Holds slots) :
    ∃ after, boxes.take 0 = some (slots, after) ∧ after.Idle := by
  cases holds
  exact ⟨_, rfl, .inr rfl⟩

end Machine.Boxes

namespace Compiled

open Lowering (Links)

variable {type : FunctionType} {boxes : Boxes} {operands : Stack UInt32}
  {args returned : List UInt32} {signature : UInt16}

/-! ## Slots that cross a call -/

/-- The slots that a caller hands over, the last one first. -/
def Passes (type : FunctionType) (args : List UInt32) (boxes : Boxes) : Prop :=
  match Convention.of type with
  | .slots => args.length = type.paramSlots ∧ boxes.Idle
  | .boxed => args = [0] ∧ ∃ slots, slots.length = type.paramSlots ∧ boxes.Holds slots

/-- The slots that a callee gives back, the last one first. -/
def Returns (type : FunctionType) (returned : List UInt32) (boxes : Boxes) : Prop :=
  if type.results.length > 1 then
    returned = [0] ∧ ∃ slots, slots.length = type.resultSlots ∧ boxes.Holds slots
  else returned.length = type.resultSlots ∧ boxes.Idle

theorem Passes.length (passes : Passes type args boxes) : args.length = argSlots type := by
  unfold Passes at passes
  unfold argSlots
  cases convention : of type with
  | slots =>
    rw [convention] at passes
    exact passes.1
  | boxed =>
    rw [convention] at passes
    rw [passes.1]
    rfl

theorem Returns.length (returns : Returns type returned boxes) :
    returned.length = returnSlots type := by
  unfold Returns at returns
  unfold returnSlots
  split
  · rename_i several
    rw [if_pos several] at returns
    rw [returns.1]
    rfl
  · rename_i single
    rw [if_neg single] at returns
    exact returns.1

theorem map_kind_decodeValues (kinds : List ValueKind) (slots : List UInt32) :
    (decodeValues kinds slots).map Value.kind = kinds := by
  induction kinds generalizing slots with
  | nil => rfl
  | cons kind kinds ih =>
    simp only [decodeValues]
    split <;> rw [List.map_cons, Value.kind_ofPayload, ih]

/-- Arguments that come as values are handed over as slots. -/
theorem passes_pushArguments (idle : boxes.Idle) (kinds : values.map Value.kind = type.params)
    (operands : Stack UInt32) : ∃ args,
      (pushArguments boxes type values operands).2.items = args ++ operands.items ∧
      Passes type args (pushArguments boxes type values operands).1 := by
  have length : (encodeValues values).length = type.paramSlots := by
    rw [length_encodeValues, kinds]
    rfl
  unfold pushArguments Passes
  cases of type with
  | slots =>
    refine ⟨(encodeValues values).reverse, items_pushAll _ _, ?_, idle⟩
    rw [length_reverse, length]
  | boxed =>
    obtain ⟨_, put, holds⟩ := idle.put (encodeValues values)
    simp only [put]
    exact ⟨[0], rfl, rfl, _, length, holds⟩

/-- Results that come as values are given back as slots. -/
theorem returns_pushResults (idle : boxes.Idle) (kinds : values.map Value.kind = type.results)
    (operands : Stack UInt32) : ∃ returned,
      (pushResults boxes type values operands).2.items = returned ++ operands.items ∧
      Returns type returned (pushResults boxes type values operands).1 := by
  have length : (encodeValues values).length = type.resultSlots := by
    rw [length_encodeValues, kinds]
    rfl
  unfold pushResults Returns
  split
  · obtain ⟨_, put, holds⟩ := idle.put (encodeValues values)
    simp only [put]
    exact ⟨[0], rfl, rfl, _, length, holds⟩
  · refine ⟨(encodeValues values).reverse, items_pushAll _ _, ?_, idle⟩
    rw [length_reverse, length]

/-- What is handed over as slots can be read as values. -/
theorem Passes.popArguments (passes : Passes type args boxes)
    (items : operands.items = args ++ rest.items) :
    ∃ values after, popArguments boxes type operands = .ok (values, after, rest) ∧ after.Idle ∧
      values.map Value.kind = type.params := by
  unfold Compiled.popArguments
  unfold Passes at passes
  cases convention : of type with
  | slots =>
    rw [convention] at passes
    obtain ⟨length, idle⟩ := passes
    simp only [← length, last_of_items items, drop_of_items items]
    exact ⟨_, _, rfl, idle, map_kind_decodeValues _ _⟩
  | boxed =>
    rw [convention] at passes
    obtain ⟨rfl, slots, _, holds⟩ := passes
    have standing : operands = rest.push 0 := ext_items items
    obtain ⟨after, taken, idle⟩ := holds.take
    simp only [standing, pop_push, taken]
    exact ⟨_, _, rfl, idle, map_kind_decodeValues _ _⟩

/-- What is given back as slots can be read as values. -/
theorem Returns.entryResults (returns : Returns type returned boxes)
    (items : operands.items = returned ++ rest.items) :
    ∃ values after, entryResults boxes type rest.height operands = .ok (values, after, rest) ∧
      after.Idle ∧ values.map Value.kind = type.results := by
  unfold Compiled.entryResults
  unfold Returns at returns
  split
  · rename_i several
    rw [if_pos several] at returns
    obtain ⟨rfl, slots, _, holds⟩ := returns
    have standing : operands = rest.push 0 := ext_items items
    obtain ⟨after, taken, idle⟩ := holds.take
    simp only [standing, pop_push, taken]
    exact ⟨_, _, rfl, idle, map_kind_decodeValues _ _⟩
  · rename_i single
    rw [if_neg single] at returns
    rw [truncate_of_items items]
    exact ⟨_, _, rfl, returns.2, map_kind_decodeValues _ _⟩

/-! ## Frames -/

/-- A unit that stands for a function, with what its frames hold in front of its instructions. -/
structure Code where
  source : Module
  function : Nat
  unit : LoadedUnit
  stances : Nat → Option Stance
  declared : source.functionType function = some unit.signature
  tracked : Tracked unit stances
  verified : unit.verify = .ok unit.maxStack
  links : ∀ {position : Nat} {action : Action},
    unit.code[position]? = some (.plain action) → Links source unit action

/-- An instruction is reached with a stance, of the depth that the check gives to it. -/
def Code.Reaches (code : Code) (position : Nat) (stance : Stance) : Prop :=
  code.stances position = some stance ∧ code.unit.depthAt position = some stance.depth

def Keeps (locals : Array UInt32) (own : List UInt32) (boxes : Boxes) : Stance → Prop
  | .plain depth => own.length = depth ∧ boxes.Idle
  | .boxed count depth =>
    ∃ rest slots, own = 0 :: rest ∧ rest.length = depth ∧ slots.length = count ∧
      boxes.Holds slots
  | .beneath count depth =>
    ∃ top rest slots, own = top :: 0 :: rest ∧ rest.length = depth ∧ slots.length = count ∧
      boxes.Holds slots
  | .arrived count =>
    own = [] ∧ locals[0]? = some 0 ∧ ∃ slots, slots.length = count ∧ boxes.Holds slots

section Frames

variable (code : Code) (floor : Stack UInt32)

/-- A frame runs a unit, and has its local slots. -/
structure Frame.Runs (frame : Frame) : Prop where
  unit : frame.unit = code.unit
  base : frame.base = floor.height
  locals : frame.locals.size = max code.unit.localSlots (argSlots code.unit.signature)

/-- A frame stands in front of an instruction as the check says. -/
structure Stands (frame : Frame) (stance : Stance) (operands : Stack UInt32) (boxes : Boxes) :
    Prop where
  runs : frame.Runs code floor
  here : code.Reaches frame.position stance
  keeps : ∃ own, operands.items = own ++ floor.items ∧ Keeps frame.locals own boxes stance

/-- A frame waits for the results of a callee, above operands of its own. -/
structure Awaits (frame : Frame) (callee : FunctionType) (operands : Stack UInt32) : Prop where
  runs : frame.Runs code floor
  waits : ∃ own, operands.items = own ++ floor.items ∧
    code.Reaches frame.position (.returning callee own.length)

def Answers (source : Module) (store : Store) (type : FunctionType) : Target → Prop
  | .interpreted function =>
    source.importCount ≤ function ∧ source.functionType function = some type
  | .imported function => function < source.importCount ∧ source.functionType function = some type
  | .foreign id function =>
    ∃ live, store.instances[id]? = some live ∧ live.source.functionType function = some type

/-- How a frame that stands as the check says may go on. -/
inductive Goes : Except Trap Move × Scene → Prop
  | trap {trap : Trap} (scene : Scene) : trap.kind ≠ .host → Goes (.error trap, scene)
  | run {frame : Frame} {stance : Stance} {scene : Scene} :
      Stands code floor frame stance scene.operands scene.boxes → Goes (.ok (.run frame), scene)
  | leave {returned : List UInt32} {scene : Scene} :
      scene.operands.items = returned ++ floor.items →
      Returns code.unit.signature returned scene.boxes → Goes (.ok .leave, scene)
  | call {frame : Frame} {function : Nat} {callee : FunctionType} {args : List UInt32}
      {rest : Stack UInt32} {scene : Scene} :
      code.source.functionType function = some callee →
      scene.operands.items = args ++ rest.items → Passes callee args scene.boxes →
      Awaits code floor frame callee rest → Goes (.ok (.call frame function), scene)
  | ask {frame : Frame} {target : Target} {callee : FunctionType} {args : List Value}
      {scene : Scene} :
      Answers code.source scene.store callee target →
      args.map Value.kind = callee.params → scene.boxes.Idle →
      Awaits code floor frame callee scene.operands →
      Goes (.ok (.ask frame target args callee), scene)

end Frames

section Steps

variable {code : Code} {floor : Stack UInt32} {frame : Frame} {stance after : Stance}
  {scene : Scene} {live : Instance}

theorem Code.reaches_start (code : Code) : code.Reaches 0 (.entry code.unit.signature) := by
  obtain ⟨consistent, _⟩ := LoadedUnit.consistent_of_verify code.verified
  refine ⟨code.tracked.start, ?_⟩
  rw [consistent.start, Stance.depth_entry]

/-- Wherever control goes on, it finds the depth that the check gives. -/
theorem Code.Reaches.step {position : Nat} (here : code.Reaches position stance) :
    ∃ instr after, code.unit.code[position]? = some instr ∧ Steps code.unit stance after instr ∧
      (∀ target ∈ instr.targets, code.Reaches target after) ∧
      (instr.terminates = false → code.Reaches (position + 1) after) := by
  obtain ⟨instr, after, found, steps, lands, goes⟩ := code.tracked.step here.1
  obtain ⟨consistent, _⟩ := LoadedUnit.consistent_of_verify code.verified
  obtain ⟨_, _, same, checked, successors⟩ := consistent.step here.2
  cases found.symm.trans same
  cases steps.check.symm.trans checked
  refine ⟨instr, after, found, steps, fun target member => ⟨lands target member, ?_⟩,
    fun continues => ⟨goes continues, ?_⟩⟩
  · apply successors
    unfold LoadedUnit.successors
    split <;> simp [member]
  · apply successors
    rw [LoadedUnit.successors, continues]
    exact List.mem_cons_self

theorem goes_run (own : List UInt32) (runs : frame.Runs code floor)
    (here : code.Reaches frame.position after) (items : scene.operands.items = own ++ floor.items)
    (keeps : Keeps frame.locals own scene.boxes after) :
    Goes code floor (.ok (.run frame), scene) :=
  .run ⟨runs, here, own, items, keeps⟩

section Stances

variable {locals : Array UInt32} {own : List UInt32} {boxes : Boxes} {type : FunctionType}
  {depth : Nat}

theorem Keeps.calling (keeps : Keeps locals own boxes (.calling type depth)) :
    ∃ args rest, own = args ++ rest ∧ rest.length = depth ∧ Passes type args boxes := by
  unfold Stance.calling at keeps
  unfold Passes
  cases convention : of type with
  | slots =>
    rw [convention] at keeps
    obtain ⟨length, idle⟩ := keeps
    refine ⟨own.take type.paramSlots, own.drop type.paramSlots, by simp, ?_, ?_, idle⟩
    · rw [length_drop]
      omega
    · rw [length_take]
      omega
  | boxed =>
    rw [convention] at keeps
    obtain ⟨rest, slots, rfl, length, count, holds⟩ := keeps
    exact ⟨[0], rest, rfl, length, rfl, slots, count, holds⟩

theorem Keeps.choosing (keeps : Keeps locals own boxes (.choosing type depth)) :
    ∃ element args rest, own = element :: (args ++ rest) ∧ rest.length = depth ∧
      Passes type args boxes := by
  unfold Stance.choosing at keeps
  unfold Passes
  cases convention : of type with
  | slots =>
    rw [convention] at keeps
    obtain ⟨length, idle⟩ := keeps
    obtain ⟨element, others, rfl⟩ := List.exists_cons_of_length_eq_add_one length
    rw [List.length_cons] at length
    refine ⟨element, others.take type.paramSlots, others.drop type.paramSlots, by simp, ?_, ?_,
      idle⟩
    · rw [length_drop]
      omega
    · rw [length_take]
      omega
  | boxed =>
    rw [convention] at keeps
    obtain ⟨element, rest, slots, rfl, length, count, holds⟩ := keeps
    exact ⟨element, [0], rest, rfl, length, rfl, slots, count, holds⟩

theorem Keeps.returning (keeps : Keeps locals own boxes (.returning type depth)) :
    ∃ returned rest, own = returned ++ rest ∧ rest.length = depth ∧
      Returns type returned boxes := by
  unfold Stance.returning at keeps
  unfold Returns
  split at keeps
  · rename_i several
    simp only [several, if_true]
    obtain ⟨rest, slots, rfl, length, count, holds⟩ := keeps
    exact ⟨[0], rest, rfl, length, rfl, slots, count, holds⟩
  · rename_i single
    simp only [single, if_false]
    obtain ⟨length, idle⟩ := keeps
    refine ⟨own.take type.resultSlots, own.drop type.resultSlots, by simp, ?_, ?_, idle⟩
    · rw [length_drop]
      omega
    · rw [length_take]
      omega

theorem keeps_returning (returns : Returns type returned boxes) :
    Keeps locals (returned ++ rest) boxes (.returning type rest.length) := by
  unfold Stance.returning
  unfold Returns at returns
  split
  · rename_i several
    rw [if_pos several] at returns
    obtain ⟨rfl, slots, count, holds⟩ := returns
    exact ⟨rest, slots, rfl, rfl, count, holds⟩
  · rename_i single
    rw [if_neg single] at returns
    refine ⟨?_, returns.2⟩
    rw [length_append, returns.1, Nat.add_comm]

end Stances

/-! ## Actions -/

section Actions

variable {own : List UInt32} {action : Action}

theorem moves_straight (straight : action.isStraight = true)
    (moves : Moves unit action stance after) :
    ∃ pops pushes depth, unit.actionEffect action = .ok (pops, pushes) ∧
      stance = .plain (depth + pops) ∧ after = .plain (depth + pushes) := by
  cases action
  case load | store | trap | checkInterrupt | leave | call | callIndirect | box | unbox =>
    cases straight
  all_goals exact moves.2

/-- The last slots are taken off the operands. -/
theorem exists_taken (items : operands.items = own ++ floor.items) (enough : pops ≤ own.length) :
    ∃ taken, taken.length = pops ∧
      operands = (ofItems (own.drop pops ++ floor.items)).pushAll taken := by
  refine ⟨(own.take pops).reverse, ?_, eq_pushAll ?_⟩
  · rw [length_reverse, length_take]
    omega
  · rw [items, items_ofItems, ← append_assoc, List.take_append_drop]

theorem goes_straight (found : scene.store.instances[scene.owner]? = some live)
    (straight : action.isStraight = true) (runs : frame.Runs code floor)
    (moves : Moves code.unit action stance after) (next : code.Reaches frame.position after)
    (items : scene.operands.items = own ++ floor.items)
    (keeps : Keeps frame.locals own scene.boxes stance) :
    Goes code floor (act scene frame action) := by
  obtain ⟨pops, _, _, effect, rfl, rfl⟩ := moves_straight straight moves
  obtain ⟨length, idle⟩ := keeps
  have enough : pops ≤ own.length := by omega
  obtain ⟨taken, count, operands⟩ := exists_taken items enough
  rw [act_straight found straight effect count operands]
  have faultless := action.faultless_perform scene.owner taken live
  have gives := @Action.length_perform code.unit action taken
  unfold conclude
  split
  · rename_i given done
    have pushed := gives straight effect count done
    refine goes_run (given.reverse ++ own.drop pops) runs next ?_ ⟨?_, idle⟩
    · simp
    · rw [length_append, length_reverse, pushed, length_drop]
      omega
  · exact .trap _ (faultless _ (by assumption))

theorem faultless_indirectTarget (found : scene.store.instances[scene.owner]? = some live) :
    Faultless (indirectTarget scene typeIndex table element type) := by
  simp only [indirectTarget, Store.look, found]
  refine .bind (.bind (live.faultless_table table) fun _ => ?_) fun payload => ?_
  · split
    · exact .error (by decide)
    · unfold Table.get
      split
      · exact .ok _
      · exact .error (by decide)
  · split
    · exact .error (by decide)
    · have judged (same : Bool) : Faultless (if same = true then .ok (FuncRef.ofPayload payload)
          else .error .indirectCallTypeMismatch : Except Trap FuncRef) := .guarded _ (by decide)
      split
      · exact .bind (.ok _) judged
      · exact .bind ((Store.faultless_functionType _).map _) judged

/-- A call through a table reaches a function that the dispatch table lists, or one of another
instance and of the type that the call expects. -/
theorem listed_of_indirectTarget
    (chosen : indirectTarget scene typeIndex table element type = .ok reference) :
    if reference.owner.toNat = scene.owner then
      reference.index.toNat ∈ scene.dispatch.getD typeIndex []
    else scene.store.functionType reference = .ok type := by
  obtain ⟨payload, _, chosen⟩ := bind_eq_ok.mp chosen
  split at chosen
  · cases chosen
  · dsimp only at chosen
    split at chosen
    · rename_i own
      obtain ⟨same, compared, chosen⟩ := bind_eq_ok.mp chosen
      split at chosen
      · rename_i agree
        cases chosen
        rw [if_pos own]
        cases compared
        exact List.contains_iff_mem.mp agree
      · cases chosen
    · rename_i other
      obtain ⟨same, compared, chosen⟩ := bind_eq_ok.mp chosen
      split at chosen
      · rename_i agree
        cases chosen
        rw [if_neg other]
        obtain ⟨_, known, rfl⟩ := map_eq_ok.mp compared
        rw [known, eq_of_beq agree]
      · cases chosen

theorem typed_of_indirectTarget (expects : code.source.types[typeIndex]? = some type)
    (dispatch : scene.dispatch = code.source.dispatchTables)
    (chosen : indirectTarget scene typeIndex table element type = .ok reference) :
    if reference.owner.toNat = scene.owner then
      code.source.functionType reference.index.toNat = some type
    else scene.store.functionType reference = .ok type := by
  have listed := listed_of_indirectTarget chosen
  split
  · rename_i own
    obtain ⟨_, tabled, _, typed⟩ := code.source.exists_dispatch expects
    rw [if_pos own, dispatch, Array.getD_eq_getD_getElem?, tabled] at listed
    exact (typed _).mp listed
  · rename_i other
    rwa [if_neg other] at listed

section

variable (runs : frame.Runs code floor)

include runs

theorem goes_leave (moves : Moves code.unit (.leave slots) stance after)
    (items : scene.operands.items = own ++ floor.items)
    (keeps : Keeps frame.locals own scene.boxes stance) :
    Goes code floor (act scene frame (.leave slots)) := by
  obtain ⟨count, _, rfl, _⟩ := moves
  obtain ⟨_, _, rfl, _, returns⟩ := keeps.returning
  refine .leave ?_ returns
  rw [runs.base, count, ← returns.length]
  exact items_settle_of_items (items.trans (append_assoc _ _ _))

theorem signatureOf_eq (found : code.unit.signatures[signature.toNat]? = some type) :
    signatureOf frame.unit signature = .ok type := by
  rw [signatureOf, runs.unit, signatureAt_eq found]

/-- A call that travels as values hands them over and waits. -/
theorem goes_ask (next : code.Reaches frame.position (.returning type rest.length))
    (passes : Passes type args scene.boxes) (items : operands.items = args ++ (rest ++ floor.items))
    (answers : Answers code.source scene.store type target) :
    ∃ values boxes below, popArguments scene.boxes type operands = .ok (values, boxes, below) ∧
      Goes code floor (.ok (.ask frame target values type),
        { scene with boxes, operands := below }) := by
  have items : operands.items = args ++ (ofItems (rest ++ floor.items)).items := items
  obtain ⟨values, boxes, popped, idle, kinds⟩ := passes.popArguments items
  exact ⟨values, boxes, _, popped, .ask answers kinds idle ⟨runs, rest, rfl, next⟩⟩

variable (next : code.Reaches frame.position after)
  (items : scene.operands.items = own ++ floor.items)
  (keeps : Keeps frame.locals own scene.boxes stance)

include next items keeps

theorem goes_load (moves : Moves code.unit (.load width slot) stance after) :
    Goes code floor (act scene frame (.load width slot)) := by
  cases width with
  | one =>
    obtain ⟨_, moves⟩ := moves
    refine goes_run (frame.locals.getD slot.toNat 0 :: own) runs next (by simp [items]) ?_
    cases stance with
    | plain depth =>
      cases moves
      exact ⟨congrArg Nat.succ keeps.1, keeps.2⟩
    | boxed count depth =>
      cases moves
      obtain ⟨rest, slots, rfl, length, same, holds⟩ := keeps
      exact ⟨_, rest, slots, rfl, length, same, holds⟩
    | beneath => cases moves
    | arrived count =>
      obtain ⟨rfl, rfl⟩ := moves
      obtain ⟨rfl, handle, slots, same, holds⟩ := keeps
      refine ⟨[], slots, ?_, rfl, same, holds⟩
      simp [handle]
  | two =>
    obtain ⟨_, _, _, depth, effect, rfl, rfl⟩ := moves
    cases effect
    obtain ⟨length, idle⟩ := keeps
    refine goes_run (frame.locals.getD (slot.toNat + 1) 0 :: frame.locals.getD slot.toNat 0 :: own)
      runs next (by simp [items]) ⟨?_, idle⟩
    have two : Width.two.slots = 2 := rfl
    simp only [List.length_cons]
    omega

theorem goes_store (moves : Moves code.unit (.store width slot) stance after) :
    Goes code floor (act scene frame (.store width slot)) := by
  obtain ⟨_, _, _, _, effect, rfl, rfl⟩ := moves
  obtain ⟨length, idle⟩ := keeps
  obtain ⟨unit, position, base, locals⟩ := frame
  cases width with
  | one =>
    cases effect
    obtain ⟨value, others, rfl⟩ := List.exists_cons_of_length_eq_add_one length
    have standing : scene.operands = (ofItems (others ++ floor.items)).push value := ext_items items
    simp only [act, storeLocal, standing, pop_push, running]
    refine goes_run others ⟨runs.unit, runs.base, ?_⟩ next rfl ⟨Nat.succ.inj length, idle⟩
    exact (Array.size_setIfInBounds ..).trans runs.locals
  | two =>
    cases effect
    obtain ⟨high, others, rfl⟩ := List.exists_cons_of_length_eq_add_one length
    obtain ⟨low, others, rfl⟩ := List.exists_cons_of_length_eq_add_one (Nat.succ.inj length)
    have standing : scene.operands =
        ((ofItems (others ++ floor.items)).push low).push high :=
      ext_items items
    simp only [act, storeLocal, standing, pop_push, running]
    refine goes_run others ⟨runs.unit, runs.base, ?_⟩ next rfl
      ⟨Nat.succ.inj (Nat.succ.inj length), idle⟩
    simp only [Array.size_setIfInBounds]
    exact runs.locals

theorem goes_box (moves : Moves code.unit (.box parcel signature) stance after) :
    Goes code floor (act scene frame (.box parcel signature)) := by
  obtain ⟨type, _, found, rfl, rfl⟩ := moves
  obtain ⟨_, idle⟩ := keeps
  obtain ⟨boxes, put, holds⟩ := idle.put (scene.operands.last (LoadedUnit.parcelSlots type parcel))
  simp only [act, boxTop, signatureOf_eq runs found, put]
  refine goes_run (0 :: own.drop (LoadedUnit.parcelSlots type parcel)) runs next ?_
    ⟨_, _, rfl, ?_, ?_, holds⟩
  · rw [items_push, items_drop, items, List.drop_append_of_le_length (by omega)]
    rfl
  · rw [length_drop]
    omega
  · rw [last, length_reverse, length_take, items, length_append]
    omega

theorem goes_unbox (moves : Moves code.unit (.unbox parcel signature) stance after) :
    Goes code floor (act scene frame (.unbox parcel signature)) := by
  obtain ⟨_, _, _, rfl, rfl⟩ := moves
  obtain ⟨rest, slots, rfl, _, _, holds⟩ := keeps
  have standing : scene.operands = (ofItems (rest ++ floor.items)).push 0 := ext_items items
  obtain ⟨boxes, taken, idle⟩ := holds.take
  simp only [act, unboxTop, standing, pop_push, taken]
  refine goes_run (slots.reverse ++ rest) runs next (by simp) ⟨?_, idle⟩
  rw [length_append, length_reverse]
  omega

theorem goes_call (links : Links code.source code.unit (.call callee function signature))
    (moves : Moves code.unit (.call callee function signature) stance after) :
    Goes code floor (act scene frame (.call callee function signature)) := by
  obtain ⟨type, _, found, rfl, rfl⟩ := moves
  obtain ⟨_, declared, pooled, imported, defined⟩ := links
  rw [Lowering.Pooled, found] at pooled
  cases pooled
  obtain ⟨args, rest, rfl, rfl, passes⟩ := keeps.calling
  rw [append_assoc] at items
  have ask {target : Target} (answers : Answers code.source scene.store type target) :
      Goes code floor (callDirect.ask scene frame signature target) := by
    obtain ⟨_, boxes, _, popped, goes⟩ := goes_ask runs next passes items answers
    simp only [callDirect.ask, signatureOf_eq runs found, popped]
    exact goes
  cases callee with
  | unit =>
    have items : scene.operands.items =
        args ++ (ofItems (rest ++ floor.items)).items := items
    exact .call declared items passes ⟨runs, rest, rfl, next⟩
  | imported => exact ask ⟨imported rfl, declared⟩
  | interpreted => exact ask ⟨defined rfl, declared⟩

theorem goes_callIndirect (found : scene.store.instances[scene.owner]? = some live)
    (dispatch : scene.dispatch = code.source.dispatchTables)
    (links : Links code.source code.unit (.callIndirect typeIndex table signature))
    (moves : Moves code.unit (.callIndirect typeIndex table signature) stance after) :
    Goes code floor (act scene frame (.callIndirect typeIndex table signature)) := by
  obtain ⟨type, _, pooledType, rfl, rfl⟩ := moves
  obtain ⟨_, expects, pooled, _⟩ := links
  rw [Lowering.Pooled, pooledType] at pooled
  cases pooled
  obtain ⟨element, args, rest, rfl, rfl, passes⟩ := keeps.choosing
  have items : scene.operands.items =
      element :: (ofItems (args ++ (rest ++ floor.items))).items := by
    rw [items, List.cons_append, append_assoc]
    rfl
  have standing : scene.operands = (ofItems (args ++ (rest ++ floor.items))).push
      element := ext_items items
  simp only [act, callIndirect, signatureOf_eq runs pooledType, standing, pop_push]
  split
  · rename_i trap failed
    exact .trap _ (faultless_indirectTarget found trap failed)
  · rename_i reference chosen
    have typed := typed_of_indirectTarget expects dispatch chosen
    split
    · rename_i own
      rw [if_pos own] at typed
      have items : (ofItems (args ++ (rest ++ floor.items))).items =
          args ++ (ofItems (rest ++ floor.items)).items := rfl
      exact .call typed items passes ⟨runs, rest, rfl, next⟩
    · rename_i other
      rw [if_neg other] at typed
      have answers : Answers code.source scene.store type
          (.foreign reference.owner.toNat reference.index.toNat) :=
        Store.exists_of_functionType typed
      obtain ⟨_, boxes, _, popped, goes⟩ := goes_ask runs next passes (items_ofItems _) answers
      simp only [popped]
      exact goes

end

theorem goes_act (found : scene.store.instances[scene.owner]? = some live)
    (dispatch : scene.dispatch = code.source.dispatchTables) (runs : frame.Runs code floor)
    (links : Links code.source code.unit action) (moves : Moves code.unit action stance after)
    (next : (Machine.Instruction.plain action : Machine.Instruction Nat).terminates = false →
      code.Reaches frame.position after) (items : scene.operands.items = own ++ floor.items)
    (keeps : Keeps frame.locals own scene.boxes stance) :
    Goes code floor (act scene frame action) := by
  by_cases straight : action.isStraight = true
  · refine goes_straight found straight runs moves (next ?_) items keeps
    cases action <;> first | rfl | cases straight
  cases action
  case trap reason => cases reason <;> exact .trap _ (by decide)
  case checkInterrupt =>
    cases moves
    simp only [act]
    by_cases pending : scene.store.takeInterrupt.1 = true
    · rw [if_pos pending]
      exact .trap _ (by decide)
    · rw [if_neg pending]
      exact goes_run own runs (next rfl) items keeps
  case load => exact goes_load runs (next rfl) items keeps moves
  case store => exact goes_store runs (next rfl) items keeps moves
  case leave => exact goes_leave runs moves items keeps
  case call => exact goes_call runs (next rfl) items keeps links moves
  case callIndirect =>
    exact goes_callIndirect runs (next rfl) items keeps found dispatch links moves
  case box => exact goes_box runs (next rfl) items keeps moves
  case unbox => exact goes_unbox runs (next rfl) items keeps moves
  all_goals exact absurd rfl straight

end Actions

theorem mem_switchTarget (nonempty : targets ≠ []) (index : Nat) :
    switchTarget targets index ∈ targets := by
  unfold switchTarget
  split
  · exact List.mem_of_getElem? (by assumption)
  · rw [List.getLastD_eq_getLast?, List.getLast?_eq_some_getLast nonempty]
    exact List.getLast_mem nonempty

/-- A frame that stands as the check says goes on in one of the ways that its type allows. -/
theorem goes_step (found : scene.store.instances[scene.owner]? = some live)
    (dispatch : scene.dispatch = code.source.dispatchTables)
    (stands : Stands code floor frame stance scene.operands scene.boxes) :
    Goes code floor (step scene frame) := by
  obtain ⟨runs, here, own, items, keeps⟩ := stands
  obtain ⟨instr, _, standing, steps, lands, goes⟩ := here.step
  rw [← runs.unit] at standing
  obtain ⟨unit, _, base, locals⟩ := frame
  have moved (target : Nat) : Frame.Runs code floor ⟨unit, target, base, locals⟩ := { runs with }
  -- A condition or an index is taken off the operands before control goes elsewhere.
  have taken {depth : Nat} (same : stance = .plain (depth + 1)) :
      ∃ top rest, scene.operands = (ofItems (rest ++ floor.items)).push top ∧
        Keeps locals rest scene.boxes (.plain depth) := by
    subst same
    obtain ⟨length, idle⟩ := keeps
    obtain ⟨top, rest, rfl⟩ := List.exists_cons_of_length_eq_add_one length
    exact ⟨top, rest, ext_items items, Nat.succ.inj length, idle⟩
  cases instr with
  | plain =>
    have same : unit = code.unit := runs.unit
    simp only [step, standing]
    exact goes_act found dispatch (moved _) (code.links (same ▸ standing)) steps goes items keeps
  | jump condition target =>
    cases condition with
    | always =>
      obtain ⟨depth, rfl, rfl⟩ := steps
      simp only [step, standing]
      exact goes_run own (moved _) (lands target (List.mem_singleton_self _)) items keeps
    | zero | nonzero =>
      obtain ⟨depth, before, rfl⟩ := steps
      obtain ⟨top, rest, operands, kept⟩ := taken before
      simp only [step, standing, operands, pop_push, running]
      split
      all_goals
        first
        | exact goes_run rest (moved _) (lands target (List.mem_singleton_self _)) rfl kept
        | exact goes_run rest (moved _) (goes rfl) rfl kept
  | switch =>
    obtain ⟨nonempty, depth, before, rfl⟩ := steps
    obtain ⟨top, rest, operands, kept⟩ := taken before
    simp only [step, standing, operands, pop_push, running]
    exact goes_run rest (moved _) (lands _ (mem_switchTarget nonempty _)) rfl kept

/-- Actions that transfer control or touch locals and boxes leave all instances as they are. -/
theorem instances_act (bent : action.isStraight = false) :
    (act scene frame action).2.store.instances = scene.store.instances := by
  cases action <;> simp only [act]
  case trap reason => cases reason <;> rfl
  case load width slot | store width slot => cases width <;> rfl
  case call callee function signature =>
    unfold callDirect callDirect.ask
    repeat' split
    all_goals rfl
  case callIndirect =>
    unfold callIndirect
    repeat' split
    all_goals rfl
  case box =>
    unfold boxTop
    split <;> rfl
  case unbox =>
    unfold unboxTop
    dsimp only
    split <;> rfl
  all_goals first | rfl | cases bent

theorem sound_step (found : scene.store.instances[scene.owner]? = some live)
    (source : live.source = code.source) (sound : scene.store.Sound)
    (stands : Stands code floor frame stance scene.operands scene.boxes) :
    (step scene frame).2.store.Sound := by
  obtain ⟨runs, here, own, items, keeps⟩ := stands
  obtain ⟨instr, _, standing, steps, _⟩ := here.step
  rw [← runs.unit] at standing
  obtain ⟨unit, _⟩ := frame
  cases instr with
  | plain action =>
    have same : unit = code.unit := runs.unit
    simp only [step, standing]
    by_cases straight : action.isStraight = true
    · obtain ⟨pops, _, _, effect, rfl, rfl⟩ := moves_straight straight steps
      obtain ⟨length, _⟩ := keeps
      have enough : pops ≤ own.length := by omega
      obtain ⟨taken, count, operands⟩ := exists_taken items enough
      have links := code.links (same ▸ standing)
      have fits : action.FitsGlobals live.source := by
        rintro _ _ rfl
        rw [source]
        exact links
      rw [act_straight found straight effect count operands]
      have put := sound.put scene.owner
        (Action.sound_perform scene.owner taken (sound _ _ found) fits)
      unfold conclude
      split <;> exact put
    · rw [Bool.not_eq_true] at straight
      exact sound.of_instances (instances_act straight)
  | jump condition => cases condition <;> simp only [step, standing] <;> exact sound
  | switch =>
    simp only [step, standing]
    exact sound

end Steps

/-! ## Entering and resuming -/

section Frames

variable {code : Code} {floor operands rest : Stack UInt32} {frame : Frame} {boxes : Boxes}
  {callee : FunctionType}

theorem exists_enter (passes : Passes code.unit.signature args boxes)
    (items : operands.items = args ++ rest.items) :
    ∃ frame stance, enter code.unit operands = (frame, rest) ∧
      Stands code rest frame stance rest boxes := by
  have count : argSlots code.unit.signature = args.length := passes.length.symm
  simp only [enter, count, last_of_items items, drop_of_items items]
  refine ⟨_, _, rfl, ⟨rfl, rfl, ?_⟩, code.reaches_start, [], rfl, ?_⟩
  · rw [count]
    simp only [List.size_toArray, length_append, length_reverse, List.length_replicate]
    omega
  · unfold Passes at passes
    unfold Stance.entry
    cases convention : of code.unit.signature with
    | slots =>
      rw [convention] at passes
      exact ⟨rfl, passes.2⟩
    | boxed =>
      rw [convention] at passes
      obtain ⟨rfl, held⟩ := passes
      exact ⟨rfl, rfl, held⟩

/-- The results of a callee lead a frame on to the next instruction. -/
theorem Awaits.resume (awaits : Awaits code floor frame callee rest)
    (returns : Returns callee returned boxes) (items : operands.items = returned ++ rest.items) :
    ∃ stance, Stands code floor frame stance operands boxes := by
  obtain ⟨runs, own, below, here⟩ := awaits
  refine ⟨_, runs, here, returned ++ own, ?_, keeps_returning returns⟩
  rw [items, below, append_assoc]

end Frames

end Compiled

end TwinEngine
