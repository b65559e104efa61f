import TwinEngine.Proofs.Engine.Faults
import TwinEngine.Proofs.Normal.Code

/-!
Contract: interpreted bodies keep to the shapes that typing predicts.

Owns: what it means that a frame stands in front of an instruction as its shape says, or waits for
results, and that an operator leads from the one to the other.

Does not own: what happens between a call and its return (`Proofs.World.Soundness`), or that bodies
have shapes (`Proofs.Typing`).

The operands of a frame lie above those of the frames beneath it, and so do its open blocks. The
statements name what lies beneath, since a frame that returns must leave it as it was.
-/

namespace TwinEngine

open Typing Stack
open List (length_append take_left drop_left length_reverse)

namespace Stack

variable {α : Type} {stack beneath : Stack α} {top middle : List α}

section

variable (items : stack.items = top ++ beneath.items)

include items

theorem height_of_items : stack.height = top.length + beneath.height := by
  rw [stack.height_eq, items, length_append, beneath.height_eq]

theorem last_of_items : stack.last top.length = top.reverse := by
  rw [last, items, take_left]

theorem drop_of_items : stack.drop top.length = beneath :=
  ext_items (by rw [items_drop, items, List.drop_left])

theorem truncate_of_items : stack.truncate beneath.height = beneath := by
  rw [truncate, height_of_items items, Nat.add_sub_cancel]
  exact drop_of_items items

end

/-- What is moved down takes the place of what lay between. -/
theorem items_settle_of_items (items : stack.items = top ++ (middle ++ beneath.items)) :
    (stack.settle beneath.height top.length).items = top ++ beneath.items := by
  have height : stack.height = top.length + (middle.length + beneath.height) := by
    rw [stack.height_eq, items, length_append, length_append, beneath.height_eq]
  have between : stack.height - top.length - beneath.height = middle.length := by omega
  rw [items_settle, between, items, take_left, drop_left, drop_left]

theorem eq_pushAll (items : stack.items = top ++ beneath.items) :
    stack = beneath.pushAll top.reverse :=
  ext_items (by rw [items_pushAll, List.reverse_reverse, items])

def ofItems (items : List α) : Stack α := ⟨items, items.length, rfl⟩

@[simp]
theorem items_ofItems (items : List α) : (ofItems items).items = items := rfl

end Stack

theorem Admitted.length (admitted : Admitted kinds payloads) : payloads.length = kinds.length :=
  admitted.length_eq.symm

theorem Admitted.append (before : Admitted first left)
    (after : Admitted second right) : Admitted (first ++ second) (left ++ right) :=
  List.rel_append before after

theorem Admitted.split (admitted : Admitted (first ++ second) payloads) :
    ∃ left right, payloads = left ++ right ∧ Admitted first left ∧ Admitted second right := by
  have left := List.forall₂_take first.length admitted
  have right := List.forall₂_drop first.length admitted
  rw [take_left] at left
  rw [drop_left] at right
  exact ⟨_, _, (List.take_append_drop _ _).symm, left, right⟩

theorem Admitted.reverse (admitted : Admitted kinds payloads) :
    Admitted kinds.reverse payloads.reverse :=
  List.rel_reverse admitted

theorem Admitted.of_values (values : List Value) :
    Admitted (values.map Value.kind) (values.map Value.payload) := by
  unfold Admitted
  rw [List.forall₂_map_left_iff, List.forall₂_map_right_iff, List.forall₂_same]
  exact fun value _ => value.admits

theorem Admitted.of_default (kinds : List ValueKind) :
    Admitted kinds (kinds.map (·.default.payload)) := by
  unfold Admitted
  rw [List.forall₂_map_right_iff, List.forall₂_same]
  intro kind _
  have admits := kind.default.admits
  cases kind <;> exact admits

namespace Store

variable {store : Store}

theorem exists_of_functionType (typed : store.functionType reference = .ok type) :
    ∃ live, store.instances[reference.owner.toNat]? = some live ∧
      live.source.functionType reference.index.toNat = some type := by
  simp only [functionType] at typed
  split at typed
  · rename_i found
    cases typed
    exact Option.bind_eq_some_iff.mp found
  · cases typed

/-- The state of every instance is what its module declares. -/
def Sound (store : Store) : Prop :=
  ∀ (id : Nat) (live : Instance), store.instances[id]? = some live → live.Sound

theorem Sound.of_instances {after : Store} (sound : store.Sound)
    (same : after.instances = store.instances) : after.Sound := by
  intro id live found
  rw [same] at found
  exact sound id live found

theorem Sound.put (sound : store.Sound) (id : Nat) (inOrder : live.Sound) :
    (store.put id live).Sound := by
  intro other later found
  simp only [Store.put, Array.getElem?_setIfInBounds] at found
  split at found
  · split at found <;> cases found
    exact inOrder
  · exact sound other later found

/-- An effect that keeps every instance in order keeps the store in order. -/
theorem Sound.access (sound : store.Sound) (id : Nat)
    (preserves : ∀ live, Instance.Preserves effect live) : (store.access id effect).2.Sound := by
  intro other later found
  rw [instances_access, Array.getElem?_setIfInBounds] at found
  split at found
  · split at found <;> cases found
    rename_i inside
    exact preserves _ (sound _ _ (Array.getElem?_eq_getElem inside))
  · exact sound other later found

theorem faultless_functionType (reference : FuncRef) :
    Faultless (store.functionType reference) := by
  simp only [functionType]
  split
  · exact .ok _
  · exact .error (by simp [Trap.kind])

end Store

namespace Interpreted

variable {operands : Stack UInt64} {kinds : List ValueKind} {blocks : List Block}

/-- A body with its type and the shapes in front of its instructions. -/
structure Code where
  source : Module
  function : Nat
  type : FunctionType
  body : Body
  shapes : Nat → Option Shape
  declared : source.functionType function = some type
  defined : source.body function = some body
  typed : BodyTyped source type body shapes

/-- An open block of a frame whose operands begin at a height. -/
def controlOf (base : Nat) (block : Block) : Control :=
  ⟨base + block.beneath.length, block.label.length, block.isLoop⟩

/-- The operands and the open blocks beneath a frame. -/
structure Floor where
  operands : Stack UInt64
  controls : Stack Control

section Frames

variable (code : Code)

/-- A frame runs a body, on locals of the declared kinds. -/
structure Frame.Runs (floor : Floor) (frame : Frame) : Prop where
  source : frame.source = code.source
  function : frame.function = code.function
  body : frame.body = code.body
  results : frame.results = code.type.results.length
  locals : Admitted (code.type.params ++ code.body.locals) frame.locals.toList
  base : frame.base = floor.operands.height
  opened : frame.opened = floor.controls.height

def Stacked (floor : Floor) (kinds : List ValueKind) (operands : Stack UInt64) : Prop :=
  ∃ own, Admitted kinds own ∧ operands.items = own ++ floor.operands.items

def Opened (floor : Floor) (frame : Frame) (blocks : List Block) (controls : Stack Control) :
    Prop :=
  controls.items = blocks.map (controlOf frame.base) ++ floor.controls.items

/-- A frame stands in front of an instruction as its shape says. -/
structure Stands (floor : Floor) (frame : Frame) (shape : Shape) (operands : Stack UInt64)
    (controls : Stack Control) : Prop where
  runs : frame.Runs code floor
  here : code.shapes frame.position = some shape
  operands : Stacked floor shape.operands operands
  controls : Opened floor frame shape.blocks controls

/-- A frame waits for results of the given kinds. Those of a tail call are its own. -/
structure Awaits (floor : Floor) (frame : Frame) (results : List ValueKind)
    (operands : Stack UInt64) (controls : Stack Control) : Prop where
  runs : frame.Runs code floor
  waits : if frame.tail then
      results = code.type.results ∧ (∃ kinds, Stacked floor kinds operands) ∧
        ∃ blocks, Opened floor frame blocks controls
    else
      ∃ rest blocks, code.shapes frame.position = some ⟨results.reverse ++ rest, blocks⟩ ∧
        Stacked floor rest operands ∧ Opened floor frame blocks controls

/-- How a frame that stands as its shape says may go on. -/
inductive Goes (floor : Floor) : Except Trap Move × Scene → Prop
  | trap {trap : Trap} (scene : Scene) : trap.kind ≠ .host → Goes floor (.error trap, scene)
  | run {frame : Frame} {shape : Shape} {scene : Scene} :
      Stands code floor frame shape scene.operands scene.controls →
      Goes floor (.ok (.run frame), scene)
  | leave {scene : Scene} :
      Stacked floor code.type.results.reverse scene.operands →
      scene.controls = floor.controls → Goes floor (.ok .leave, scene)
  | call {frame : Frame} {function : Nat} {callee : FunctionType} {args : List UInt64}
      {rest : Stack UInt64} {scene : Scene} :
      code.source.importCount ≤ function → code.source.functionType function = some callee →
      Admitted callee.params.reverse args →
      scene.operands.items = args ++ rest.items →
      Awaits code floor frame callee.results rest scene.controls →
      Goes floor (.ok (.call frame function), scene)
  | compiled {frame : Frame} {function : Nat} {callee : FunctionType} {args : List Value}
      {scene : Scene} :
      code.source.importCount ≤ function → code.source.functionType function = some callee →
      args.map Value.kind = callee.params →
      Awaits code floor frame callee.results scene.operands scene.controls →
      Goes floor (.ok (.compiled frame function args), scene)
  | imported {frame : Frame} {function : Nat} {callee : FunctionType} {args : List Value}
      {scene : Scene} :
      function < code.source.importCount → code.source.functionType function = some callee →
      args.map Value.kind = callee.params →
      Awaits code floor frame callee.results scene.operands scene.controls →
      Goes floor (.ok (.imported frame function args), scene)
  | foreign {frame : Frame} {id function : Nat} {callee : FunctionType} {live : Instance}
      {args : List Value} {scene : Scene} :
      scene.store.instances[id]? = some live →
      live.source.functionType function = some callee →
      args.map Value.kind = callee.params →
      Awaits code floor frame callee.results scene.operands scene.controls →
      Goes floor (.ok (.foreign frame id function args), scene)

end Frames

section Operators

variable {code : Code} {floor : Floor} {frame : Frame} {scene : Scene}
  {live : Instance} {shape : Shape} {instr : Instruction}

theorem Frame.Runs.at {position : Nat} (runs : frame.Runs code floor) :
    Frame.Runs code floor { frame with position } := { runs with }

theorem goes_run (runs : frame.Runs code floor)
    (here : code.shapes frame.position = some ⟨kinds, blocks⟩)
    (stacked : Stacked floor kinds scene.operands)
    (opened : Opened floor frame blocks scene.controls) :
    Goes code floor (.ok (.run frame), scene) :=
  .run ⟨runs, here, stacked, opened⟩

theorem Stacked.split (stacked : Stacked floor (first ++ second) operands) :
    ∃ own rest, Admitted first own ∧ Stacked floor second rest ∧
      operands.items = own ++ rest.items := by
  obtain ⟨_, admitted, items⟩ := stacked
  obtain ⟨own, others, rfl, before, after⟩ := admitted.split
  refine ⟨own, .ofItems (others ++ floor.operands.items), before, ⟨others, after, rfl⟩, ?_⟩
  rw [items, List.append_assoc]
  rfl

theorem Stacked.push (stacked : Stacked floor second rest)
    (admitted : Admitted first own) (items : operands.items = own ++ rest.items) :
    Stacked floor (first ++ second) operands := by
  obtain ⟨others, after, below⟩ := stacked
  exact ⟨own ++ others, admitted.append after, by rw [items, below, List.append_assoc]⟩

theorem Stacked.pop (stacked : Stacked floor (kind :: rest) operands) :
    ∃ payload others, operands = others.push payload ∧ kind.Admits payload ∧
      Stacked floor rest others := by
  have stacked : Stacked floor ([kind] ++ rest) operands := stacked
  obtain ⟨_, others, admitted, stacked, items⟩ := stacked.split
  obtain ⟨payload, rfl, admits⟩ := admitted.one
  exact ⟨payload, others, ext_items items, admits, stacked⟩

theorem popWord_push (operands : Stack UInt64) (payload : UInt64) :
    popWord (operands.push payload) = (payload.toUInt32, operands) := by
  simp only [popWord, Interpreted.pop, pop_push]

theorem map_kind_valuesOf (length : payloads.length = kinds.length) :
    (valuesOf kinds payloads).map Value.kind = kinds := by
  rw [valuesOf, List.map_map]
  have same : (Value.kind ∘ fun (pair : _ × _) => .ofPayload pair.1 pair.2) =
      Prod.fst := funext fun pair => Value.kind_ofPayload _ _
  rw [same, List.map_fst_zip (by omega)]

theorem popArguments_of_items (admitted : Admitted type.params.reverse args)
    (items : operands.items = args ++ rest.items) :
    popArguments type operands = (valuesOf type.params args.reverse, rest) := by
  have length : type.params.length = args.length := by
    rw [admitted.length, length_reverse]
  simp only [popArguments, length, last_of_items items, drop_of_items items]

section Control

variable {index : Nat} {position : Nat}

theorem branch_of_items {depth target : Nat} {control : Control}
    (items : (scene.controls.drop depth).items = control :: rest) :
    branch scene frame depth target =
      let settled : Scene := { scene with
        operands := scene.operands.settle control.height control.arity
        controls := scene.controls.drop depth }
      if control.isLoop then
        (if scene.store.interrupt then .error .interrupted
          else .ok (.run { frame with position := target + 1 }),
          { settled with store := scene.store.takeInterrupt.2 })
      else (.ok (.run { frame with position := target }), settled) := by
  obtain ⟨_, operands, controls, store⟩ := scene
  simp only [branch, items, Store.takeInterrupt]
  rfl

theorem goes_branch {depth target : Nat} {block : Block} (runs : frame.Runs code floor)
    (opened : Opened floor frame blocks scene.controls)
    (lands : Lands code.body code.shapes index blocks depth target block)
    (stacked : Stacked floor (block.label.reverse ++ (own ++ block.beneath))
      scene.operands) : Goes code floor (branch scene frame depth target) := by
  obtain ⟨outer, rest, lands⟩ := lands
  have dropped : (scene.controls.drop depth).items =
      controlOf frame.base block :: (outer.map (controlOf frame.base) ++ floor.controls.items) := by
    have few : depth ≤ (blocks.map (controlOf frame.base)).length := by
      have length := congrArg List.length rest
      simp only [List.length_drop, List.length_cons, List.length_map] at length ⊢
      omega
    rw [items_drop, opened, List.drop_append_of_le_length few, ← List.map_drop, rest]
    rfl
  -- What is carried comes to lie on the operands beneath the block.
  obtain ⟨carried, _, carriedAdmitted, stacked, items⟩ := stacked.split
  obtain ⟨_, below, _, belowStacked, betweenItems⟩ := stacked.split
  have height : (controlOf frame.base block).height = below.height := by
    obtain ⟨_, admitted, items⟩ := belowStacked
    rw [height_of_items items, admitted.length, controlOf, runs.base, Nat.add_comm]
  have arity : (controlOf frame.base block).arity = carried.length := by
    rw [carriedAdmitted.length, length_reverse]
    rfl
  have settled : (scene.operands.settle (controlOf frame.base block).height
      (controlOf frame.base block).arity).items = carried ++ below.items := by
    rw [height, arity]
    exact items_settle_of_items (items.trans (by rw [betweenItems]))
  have landed := belowStacked.push carriedAdmitted settled
  rw [branch_of_items dropped]
  have isLoop : (controlOf frame.base block).isLoop = block.isLoop := rfl
  simp only [isLoop]
  split at lands
  case isTrue loop =>
    obtain ⟨_, _, _, here⟩ := lands
    simp only [loop, if_true]
    split
    · exact .trap _ (by decide)
    · refine .run ⟨runs.at, here, ?_, dropped⟩
      rw [Block.label, if_pos loop] at landed
      exact landed
  case isFalse forward =>
    obtain ⟨_, here, _⟩ := lands
    simp only [forward]
    refine .run ⟨runs.at, here, ?_, dropped⟩
    rw [Block.label, if_neg forward] at landed
    exact landed

theorem goes_leave (runs : frame.Runs code floor)
    (opened : Opened floor frame blocks scene.controls)
    (stacked : Stacked floor (code.type.results.reverse ++ rest) scene.operands) :
    Goes code floor (leave scene frame) := by
  obtain ⟨given, _, admitted, ⟨_, _, below⟩, items⟩ := stacked.split
  have results : frame.results = given.length := by
    rw [runs.results, admitted.length, length_reverse]
  obtain ⟨_, operands, controls, _⟩ := scene
  refine .leave ⟨given, admitted, ?_⟩ ?_
  · show (operands.settle frame.base frame.results).items = _
    rw [runs.base, results]
    exact items_settle_of_items (items.trans (by rw [below]))
  · show controls.truncate frame.opened = floor.controls
    rw [runs.opened]
    exact truncate_of_items opened

theorem enterBlock_eq (isLoop : Bool) (known : frame.source.blockType note = .ok type) :
    enterBlock scene frame note isLoop = .ok { scene with
      controls := scene.controls.push ⟨scene.operands.height - type.params.length,
        if isLoop then type.params.length else type.results.length, isLoop⟩ } := by
  obtain ⟨_, operands, controls, _⟩ := scene
  simp only [enterBlock, known]

/-- A block that is opened lies above the other ones. -/
theorem Opened.push (runs : frame.Runs code floor) (opened : Opened floor frame blocks controls)
    (stacked : Stacked floor block.entry operands) :
    Opened floor frame (block :: blocks) (controls.push ⟨operands.height - block.type.params.length,
        if block.isLoop then block.type.params.length else block.type.results.length,
        block.isLoop⟩) := by
  have height : operands.height - block.type.params.length =
      frame.base + block.beneath.length := by
    obtain ⟨_, admitted, items⟩ := stacked
    rw [height_of_items items, admitted.length, Block.entry, runs.base, length_append,
      length_reverse]
    omega
  have arity : (if block.isLoop then block.type.params.length else block.type.results.length) =
      block.label.length := by
    rw [Block.label]
    split <;> rfl
  unfold Opened at opened ⊢
  rw [items_push, opened, height, arity]
  rfl

theorem goes_finish (runs : frame.Runs code floor)
    (nested : Nested code.source code.type code.body block.exit (block :: outer))
    (opened : Opened floor frame (block :: outer) scene.controls)
    (stacked : Stacked floor block.exit scene.operands)
    (next : outer ≠ [] → code.shapes frame.position = some ⟨block.exit, outer⟩) :
    Goes code floor (finish scene frame) := by
  have dropped : Opened floor frame outer (scene.controls.drop 1) := by
    unfold Opened at opened ⊢
    rw [items_drop, opened]
    rfl
  have height : (scene.controls.drop 1).height = outer.length + frame.opened := by
    rw [height_of_items dropped, List.length_map, runs.opened]
  have finished : finish scene frame =
      if (scene.controls.drop 1).height ≤ frame.opened then
        leave { scene with controls := scene.controls.drop 1 } frame
      else (.ok (.run frame), { scene with controls := scene.controls.drop 1 }) := rfl
  rw [finished]
  cases outer with
  | nil =>
    rw [if_pos (by simp [height])]
    rw [Normal.eq_body_of_nested_singleton nested] at stacked
    exact goes_leave runs dropped stacked
  | cons =>
    rw [if_neg (by simp [height])]
    exact .run ⟨runs, next (List.cons_ne_nil _ _), stacked, dropped⟩

end Control

section Calls

variable {callee : FunctionType} {args : List UInt64} {rest : Stack UInt64} {tail : Bool}

theorem goes_checkInterrupt
    (goes : Goes code floor (next { scene with store := scene.store.takeInterrupt.2 })) :
    Goes code floor (checkInterrupt scene next) := by
  simp only [checkInterrupt]
  split
  · exact .trap _ (by decide)
  · exact goes

theorem awaits_next (runs : frame.Runs code floor)
    (here : code.shapes frame.position = some ⟨results.reverse ++ kinds, blocks⟩)
    (stacked : Stacked floor kinds operands) (opened : Opened floor frame blocks controls) :
    Awaits code floor { frame with tail := false } results operands controls :=
  ⟨{ runs with }, kinds, blocks, here, stacked, opened⟩

theorem awaits_tail (runs : frame.Runs code floor) (same : results = code.type.results)
    (stacked : Stacked floor kinds operands) (opened : Opened floor frame blocks controls) :
    Awaits code floor { frame with tail := true } results operands controls :=
  ⟨{ runs with }, same, ⟨kinds, stacked⟩, blocks, opened⟩

theorem goes_call (found : scene.store.instances[scene.owner]? = some live)
    (declared : code.source.functionType function = some callee)
    (admitted : Admitted callee.params.reverse args)
    (items : scene.operands.items = args ++ rest.items)
    (awaits : Awaits code floor { frame with tail } callee.results rest scene.controls) :
    Goes code floor (call scene frame function tail) := by
  have source : frame.source = code.source := awaits.runs.source
  have known : frame.source.functionType function = some callee := source ▸ declared
  have kinds : (valuesOf callee.params args.reverse).map Value.kind = callee.params :=
    map_kind_valuesOf (by simpa using admitted.length)
  refine goes_checkInterrupt ?_
  simp only [known, popArguments_of_items admitted items]
  split
  · rename_i imported
    exact .imported (source ▸ imported) declared kinds awaits
  · rename_i defined
    have defined : code.source.importCount ≤ function := source ▸ Nat.le_of_not_lt defined
    simp only [Store.look, Store.takeInterrupt, found]
    cases live.engine.interprets function with
    | true => exact .call defined declared admitted items awaits
    | false => exact .compiled defined declared kinds awaits

theorem faultless_indirectTarget (found : scene.store.instances[scene.owner]? = some live) :
    Faultless (indirectTarget scene table element) := by
  simp only [indirectTarget, Store.look, found]
  refine .bind (.bind (live.faultless_table table) fun _ => ?_) fun _ => ?_
  · split
    · exact .error (by decide)
    · refine Faultless.map ?_ _
      unfold Table.get
      split
      · exact .ok _
      · exact .error (by decide)
  · split
    · exact .ok _
    · exact .error (by decide)

theorem goes_callIndirect {others : Stack UInt64}
    (found : scene.store.instances[scene.owner]? = some live)
    (declared : code.source.types[typeIndex]? = some callee)
    (standing : scene.operands = others.push payload)
    (admitted : Admitted callee.params.reverse args) (items : others.items = args ++ rest.items)
    (awaits : Awaits code floor { frame with tail } callee.results rest scene.controls) :
    Goes code floor (callIndirect scene frame table typeIndex tail) := by
  have source : frame.source = code.source := awaits.runs.source
  have known : frame.source.types[typeIndex]? = some callee := source ▸ declared
  have kinds : (valuesOf callee.params args.reverse).map Value.kind = callee.params :=
    map_kind_valuesOf (by simpa using admitted.length)
  simp only [callIndirect, known, standing, popWord_push]
  split
  · rename_i trap failed
    exact .trap _ (faultless_indirectTarget found trap failed)
  · rename_i target _
    split
    · split
      · rename_i same
        exact goes_call found (source ▸ same) admitted items awaits
      · exact .trap _ (by decide)
    · split
      · rename_i trap failed
        exact .trap _ (Store.faultless_functionType target trap failed)
      · rename_i typed
        obtain ⟨_, present, typed⟩ := Store.exists_of_functionType typed
        split
        · rename_i same
          subst same
          refine goes_checkInterrupt ?_
          simp only [popArguments_of_items admitted items]
          exact .foreign present typed kinds awaits
        · exact .trap _ (by decide)

end Calls

section Step

variable {index : Nat}

theorem flow_plain (plain : instr.operator.isPlain = true)
    (flow : OperatorFlow source type body shapes index shape instr) : ∃ params results rest,
      Validation.Effect source (type.params ++ body.locals) params results instr.operator ∧
        shape.operands = params.reverse ++ rest ∧
        shapes (index + 1) = some ⟨results.reverse ++ rest, shape.blocks⟩ := by
  obtain ⟨operator, _⟩ := instr
  cases operator
  all_goals first | exact flow | cases plain

theorem goes_plain (found : scene.store.instances[scene.owner]? = some live)
    (source : live.source = code.source) (sound : live.Sound)
    (runs : frame.Runs code floor) (position : frame.position = index + 1)
    (stacked : Stacked floor shape.operands scene.operands)
    (opened : Opened floor frame shape.blocks scene.controls)
    (plain : instr.operator.isPlain = true)
    (flow : OperatorFlow code.source code.type code.body code.shapes index shape instr) :
    Goes code floor (act scene frame instr) := by
  obtain ⟨params, results, _, effect, operands, here⟩ := flow_plain plain flow
  rw [operands] at stacked
  obtain ⟨taken, _, admitted, below, items⟩ := stacked.split
  have inOrder : Admitted params taken.reverse := by simpa using admitted.reverse
  rw [← source] at effect
  rw [act_plain found plain effect inOrder.length (eq_pushAll items)]
  have performs := Operator.performs_perform scene.owner sound plain effect inOrder
  have faultless := instr.operator.faultless_perform scene.owner taken.reverse live
  unfold conclude
  split
  · rename_i done
    refine goes_run runs (position ▸ here) ?_ opened
    exact below.push (performs.results done).reverse (items_pushAll _ _)
  · exact .trap _ (faultless _ (by assumption))

theorem admits_local {place : Nat} (runs : frame.Runs code floor)
    (declared : (code.type.params ++ code.body.locals)[place]? = some kind) :
    kind.Admits (frame.locals.getD place 0) := by
  obtain ⟨inside, kindHere⟩ := List.getElem?_eq_some_iff.mp declared
  have present : place < frame.locals.toList.length := runs.locals.length ▸ inside
  have admits := runs.locals.get inside present
  rw [Array.getD_eq_getD_getElem?, ← Array.getElem?_toList, List.getElem?_eq_getElem present]
  exact kindHere ▸ admits

theorem Frame.Runs.setLocal (runs : frame.Runs code floor)
    (declared : (code.type.params ++ code.body.locals)[place]? = some kind)
    (admits : kind.Admits payload) :
    (Interpreted.setLocal frame place payload).Runs code floor := by
  refine { runs with locals := ?_ }
  show Admitted _ (frame.locals.setIfInBounds place payload).toList
  rw [Array.toList_setIfInBounds]
  refine List.forall₂_iff_get.mpr ⟨?_, fun _ inside present => ?_⟩
  · rw [List.length_set]
    exact runs.locals.length.symm
  · simp only [List.get_eq_getElem, List.getElem_set]
    split
    · rename_i same
      subst same
      exact (List.getElem?_eq_some_iff.mp declared).2 ▸ admits
    · exact runs.locals.get inside (by simpa using present)

variable (found : scene.store.instances[scene.owner]? = some live)
  (source : live.source = code.source) (sound : live.Sound)

include found source sound

/-- An operator leads from one shape to the next. -/
theorem goes_act (runs : frame.Runs code floor) (position : frame.position = index + 1)
    (stacked : Stacked floor shape.operands scene.operands)
    (opened : Opened floor frame shape.blocks scene.controls)
    (fits : Fits code.source code.type code.body code.shapes index shape instr) :
    Goes code floor (act scene frame instr) := by
  obtain ⟨-, -, nested, flow⟩ := fits
  by_cases plain : instr.operator.isPlain = true
  · exact goes_plain found source sound runs position stacked opened plain flow
  obtain ⟨operator, depth, _⟩ := instr
  have on {kinds : List ValueKind} (top : shape.operands = kinds) :
      Stacked floor kinds scene.operands := top ▸ stacked
  cases operator
  case unreachable => exact .trap _ (by decide)
  case enter form note =>
    cases form with
    | block | loop =>
      obtain ⟨block, known, _, loop, _, operands, here⟩ := flow
      simp only [act, enterBlock_eq _ (runs.source ▸ known)]
      refine goes_run runs (position ▸ here) (on operands) ?_
      have pushed := opened.push runs (on operands)
      rw [loop] at pushed
      exact pushed
    | conditional =>
      obtain ⟨block, target, known, _, loop, operands, here, label, _, there, _⟩ := flow
      obtain ⟨condition, others, standing, _, stacked⟩ := (on operands).pop
      dsimp only at label
      have pushed := opened.push runs stacked
      rw [loop] at pushed
      simp only [act, standing, popWord_push, label, Option.getD_some,
        enterBlock_eq false (runs.source ▸ known)]
      split
      · exact goes_run runs.at there stacked pushed
      · exact goes_run runs.at (position ▸ here) stacked pushed
  case otherwise =>
    obtain ⟨block, outer, target, blocks, _, operands, _, label, _, there, _⟩ := flow
    dsimp only at label
    simp only [act, label, Option.getD_some]
    rw [blocks] at opened
    exact goes_run runs.at there (on operands) opened
  case finish =>
    obtain ⟨block, outer, blocks, _, operands, next⟩ := flow
    rw [blocks] at opened
    rw [operands, blocks] at nested
    refine goes_finish runs nested opened (on operands) fun around => ?_
    rcases next with ⟨empty, _⟩ | ⟨_, here⟩
    · exact absurd empty around
    · exact position ▸ here
  case branch depth =>
    obtain ⟨_, target, block, own, label, lands, operands⟩ := flow
    dsimp only at label
    simp only [act, label, Option.getD_some]
    exact goes_branch runs opened lands (on operands)
  case branchIf depth =>
    obtain ⟨target, block, own, label, _, lands, operands, here⟩ := flow
    dsimp only at label
    obtain ⟨condition, others, standing, _, stacked⟩ := (on operands).pop
    simp only [act, standing, popWord_push, label, Option.getD_some]
    split
    · exact goes_run runs (position ▸ here) stacked opened
    · exact goes_branch runs opened lands stacked
  case branchTable targets fallback =>
    obtain ⟨_, _, rest, operands, lands⟩ := flow
    obtain ⟨choice, others, standing, _, stacked⟩ := (on operands).pop
    simp only [act, standing, popWord_push]
    cases chosen : targets[choice.toUInt32.toNat]? with
    | some depth =>
      have inside := lt_length chosen
      obtain ⟨target, block, own, label, lands, kinds⟩ := lands choice.toUInt32.toNat depth
        (by rw [List.getElem?_append_left inside, chosen])
      simp only [label, Option.getD_some]
      exact goes_branch runs opened lands (kinds ▸ stacked)
    | none =>
      obtain ⟨target, block, own, label, lands, kinds⟩ := lands targets.length fallback (by simp)
      simp only [label, Option.getD_some]
      exact goes_branch runs opened lands (kinds ▸ stacked)
  case leave =>
    obtain ⟨_, rest, operands⟩ := flow
    exact goes_leave runs opened (on operands)
  case call function =>
    obtain ⟨params, results, rest, declared, operands, here⟩ := flow
    obtain ⟨args, others, admitted, below, items⟩ := (on operands).split
    exact goes_call found declared admitted items
      (awaits_next runs (position ▸ here) below opened)
  case tailCall function =>
    obtain ⟨_, callee, rest, declared, results, operands⟩ := flow
    obtain ⟨args, others, admitted, below, items⟩ := (on operands).split
    exact goes_call found declared admitted items (awaits_tail runs results below opened)
  case callIndirect table typeIndex =>
    obtain ⟨params, results, rest, ⟨type, kind, declared, _, _, rfl, rfl⟩, operands, here⟩ := flow
    rw [operands, List.reverse_append] at stacked
    obtain ⟨element, under, standing, _, stacked⟩ := stacked.pop
    obtain ⟨args, others, admitted, below, items⟩ := stacked.split
    exact goes_callIndirect found declared standing admitted items
      (awaits_next runs (position ▸ here) below opened)
  case tailCallIndirect table typeIndex =>
    obtain ⟨_, callee, kind, rest, declared, _, _, results, operands⟩ := flow
    obtain ⟨element, under, standing, _, stacked⟩ := (on operands).pop
    obtain ⟨args, others, admitted, below, items⟩ := stacked.split
    exact goes_callIndirect found declared standing admitted items
      (awaits_tail runs results below opened)
  case localGet place =>
    obtain ⟨params, results, rest, ⟨kind, declared, rfl, rfl⟩, operands, here⟩ := flow
    refine goes_run runs (position ▸ here) ?_ opened
    exact (on operands).push (.cons (admits_local runs declared) .nil) rfl
  case localSet place =>
    obtain ⟨params, results, rest, ⟨kind, declared, rfl, rfl⟩, operands, here⟩ := flow
    obtain ⟨payload, others, standing, admits, stacked⟩ := (on operands).pop
    simp only [act, standing, Interpreted.pop, pop_push, running]
    exact goes_run (runs.setLocal declared admits) (position ▸ here) stacked opened
  case localTee place =>
    obtain ⟨params, results, rest, ⟨kind, declared, rfl, rfl⟩, operands, here⟩ := flow
    obtain ⟨payload, others, standing, admits, _⟩ := (on operands).pop
    refine goes_run (runs.setLocal declared ?_) (position ▸ here) (on operands) opened
    rw [standing]
    exact admits
  all_goals exact absurd rfl plain

/-- A frame that stands as its shape says goes on in one of the ways that its type allows. -/
theorem goes_step (stands : Stands code floor frame shape scene.operands scene.controls) :
    Goes code floor (step scene frame) := by
  obtain ⟨_, here, fits⟩ := code.typed.fits stands.here
  rw [← stands.runs.body] at here
  simp only [step, here]
  exact goes_act found source sound stands.runs.at rfl stands.operands stands.controls fits

end Step

/-! ## Instances -/

theorem instances_branch (scene : Scene) (frame : Frame) (depth target : Nat) :
    (branch scene frame depth target).2.store.instances = scene.store.instances := by
  unfold branch
  dsimp only
  split
  · rfl
  · split <;> rfl

theorem instances_call (scene : Scene) (frame : Frame) (function : Nat) (tail : Bool) :
    (call scene frame function tail).2.store.instances = scene.store.instances := by
  unfold call checkInterrupt
  dsimp only
  repeat' split
  all_goals rfl

theorem instances_callIndirect (scene : Scene) (frame : Frame) (table typeIndex : Nat)
    (tail : Bool) :
    (callIndirect scene frame table typeIndex tail).2.store.instances = scene.store.instances := by
  unfold callIndirect checkInterrupt
  dsimp only
  repeat' split
  all_goals first | rfl | exact instances_call _ _ _ _

/-- Operators that transfer control or touch locals leave all instances as they are. -/
theorem instances_act (plain : instr.operator.isPlain = false) :
    (act scene frame instr).2.store.instances = scene.store.instances := by
  obtain ⟨operator, _⟩ := instr
  cases operator <;> simp only [act]
  case enter form note =>
    cases form <;> dsimp only
    all_goals
      split
      · rfl
      · rename_i entered
        rw [store_enterBlock entered]
  case finish =>
    unfold finish
    dsimp only
    split <;> rfl
  case branch | branchTable => exact instances_branch _ _ _ _
  case branchIf =>
    split
    · rfl
    · exact instances_branch _ _ _ _
  case call | tailCall => exact instances_call _ _ _ _
  case callIndirect | tailCallIndirect => exact instances_callIndirect _ _ _ _ _
  all_goals first | rfl | cases plain

theorem sound_step (found : scene.store.instances[scene.owner]? = some live)
    (source : live.source = code.source) (sound : scene.store.Sound)
    (stands : Stands code floor frame shape scene.operands scene.controls) :
    (step scene frame).2.store.Sound := by
  obtain ⟨instr, here, fits⟩ := code.typed.fits stands.here
  rw [← stands.runs.body] at here
  simp only [step, here]
  by_cases plain : instr.operator.isPlain = true
  · obtain ⟨params, _, _, effect, operands, _⟩ := flow_plain plain fits.flow
    have stacked := stands.operands
    rw [operands] at stacked
    obtain ⟨taken, _, admitted, _, items⟩ := stacked.split
    have inOrder : Admitted params taken.reverse := by simpa using admitted.reverse
    rw [← source] at effect
    rw [act_plain found plain effect inOrder.length (eq_pushAll items)]
    have performs := Operator.performs_perform scene.owner (sound _ _ found) plain effect inOrder
    have put := sound.put scene.owner performs.live
    unfold conclude
    split <;> exact put
  · rw [Bool.not_eq_true] at plain
    exact sound.of_instances (instances_act plain)

end Operators

/-! ## Entering and resuming -/

section Frames

variable {code : Code} {floor : Floor} {frame : Frame} {results : List ValueKind}
  {given : List UInt64} {operands rest : Stack UInt64} {controls : Stack Control}

theorem exists_enter (controls : Stack Control) (admitted : Admitted code.type.params.reverse args)
    (items : operands.items = args ++ rest.items) :
    ∃ frame opened, enter code.source code.function operands controls = .ok (frame, rest, opened) ∧
      frame.tail = false ∧
      Stands code ⟨rest, controls⟩ frame ⟨[], [.body code.type.results]⟩ rest opened := by
  have length : code.type.params.length = args.length := by
    rw [admitted.length, length_reverse]
  have inOrder : Admitted code.type.params args.reverse := by
    simpa using admitted.reverse
  simp only [enter, code.declared, code.defined, length, last_of_items items, drop_of_items items]
  refine ⟨_, _, rfl, rfl, ⟨rfl, rfl, rfl, rfl, ?_, rfl, rfl⟩, code.typed.start,
    ⟨[], .nil, rfl⟩, rfl⟩
  simpa using inOrder.append (Admitted.of_default code.body.locals)

variable (awaits : Awaits code floor frame results rest controls)

include awaits

/-- The results of a callee lead a frame on to the next instruction. -/
theorem Awaits.resume (goesOn : frame.tail = false) (admitted : Admitted results.reverse given)
    (items : operands.items = given ++ rest.items) :
    ∃ shape, Stands code floor frame shape operands controls := by
  obtain ⟨runs, waits⟩ := awaits
  rw [goesOn] at waits
  obtain ⟨_, _, here, stacked, opened⟩ := waits
  exact ⟨_, runs, here, stacked.push admitted items, opened⟩

theorem Awaits.left (ends : frame.tail = true) (admitted : Admitted results.reverse given)
    (items : operands.items = given ++ rest.items) :
    Stacked floor code.type.results.reverse (Interpreted.left frame operands controls).1 ∧
      (Interpreted.left frame operands controls).2 = floor.controls := by
  obtain ⟨runs, waits⟩ := awaits
  rw [ends] at waits
  obtain ⟨rfl, ⟨_, _, _, below⟩, _, opened⟩ := waits
  have count : frame.results = given.length := by
    rw [runs.results, admitted.length, length_reverse]
  refine ⟨⟨given, admitted, ?_⟩, ?_⟩
  · show (operands.settle frame.base frame.results).items = _
    rw [runs.base, count]
    exact items_settle_of_items (items.trans (by rw [below]))
  · show controls.truncate frame.opened = floor.controls
    rw [runs.opened]
    exact truncate_of_items opened

end Frames

end Interpreted

end TwinEngine
