import TwinEngine.Proofs.World.References
import TwinEngine.Proofs.World.Soundness

/-!
Contract: interpreted bodies are safe in every run.

Owns: what an operator reaches for on the shared stacks, that it is always there, and how the frames
of a thread lie on these stacks.

Does not own: that runs keep to types (`Proofs.World.Soundness`), from which all of this follows.
-/

namespace TwinEngine

open Typing List

namespace Interpreted

/-! ## What an operator reaches for -/

def Frame.Has (frame : Frame) (operands : Stack UInt64) (count : Nat) : Prop :=
  frame.base + count ≤ operands.height

/-- A branch goes to a block of its frame, and what it carries lies above the operands beneath that
block. -/
def Frame.CanBranch (frame : Frame) (operands : Stack UInt64) (controls : Stack Control)
    (depth : Nat) : Prop :=
  frame.opened + depth < controls.height ∧
    ∃ control, controls.items[depth]? = some control ∧ frame.base ≤ control.height ∧
      control.height + control.arity ≤ operands.height

/-- How many operands an operator takes, unless that depends on a type. -/
def taken : Operator → Nat
  | .drop | .tableGet _ | .load .. | .memoryGrow | .refIsNull => 1
  | .tableSet _ | .tableGrow _ | .store .. => 2
  | .select | .selectKind _ | .tableFill _ | .tableCopy .. | .tableInit .. | .memoryFill
  | .memoryCopy | .memoryInit _ => 3
  | .numeric operator => operator.params.length
  | _ => 0

/-- Operands, open blocks, locals and globals that an operator reaches for are there, and they
belong to its frame or to its instance. -/
def InReach (live : Instance) (frame : Frame) (operands : Stack UInt64)
    (controls : Stack Control) : Operator → Prop
  | .enter form note =>
    ∃ type, frame.source.blockType note = .ok type ∧
      frame.Has operands ((Validation.conditionKinds form).length + type.params.length)
  | .finish =>
    frame.opened < controls.height ∧
      (controls.height = frame.opened + 1 → frame.Has operands frame.results)
  | .branch depth => frame.CanBranch operands controls depth
  | .branchIf depth => frame.Has operands 1 ∧ frame.CanBranch (operands.drop 1) controls depth
  | .branchTable targets fallback =>
    frame.Has operands 1 ∧
      ∀ depth ∈ targets ++ [fallback], frame.CanBranch (operands.drop 1) controls depth
  | .leave => frame.Has operands frame.results
  | .call function | .tailCall function =>
    ∃ type, frame.source.functionType function = some type ∧
      frame.Has operands type.params.length
  | .callIndirect table typeIndex | .tailCallIndirect table typeIndex =>
    table < live.tables.size ∧ ∃ type, frame.source.types[typeIndex]? = some type ∧
      frame.Has operands (type.params.length + 1)
  | .localGet index => index < frame.locals.size
  | .localSet index | .localTee index => index < frame.locals.size ∧ frame.Has operands 1
  | .globalGet index => index < live.globals.size
  | .globalSet index => index < live.globals.size ∧ frame.Has operands 1
  | operator => frame.Has operands (taken operator)

section Reach

variable {code : Code} {floor : Floor} {frame : Frame} {operands : Stack UInt64}
  {controls : Stack Control} {live : Instance}

section

variable (runs : frame.Runs code floor)

include runs

theorem Stacked.height (stacked : Stacked floor kinds operands) :
    operands.height = frame.base + kinds.length := by
  obtain ⟨_, admitted, items⟩ := stacked
  rw [Stack.height_of_items items, admitted.length, runs.base, Nat.add_comm]

theorem Stacked.has
    (stacked : Stacked floor kinds operands) (split : kinds = first ++ second) :
    frame.Has operands first.length := by
  have height := stacked.height runs
  rw [split, length_append] at height
  unfold Frame.Has
  omega

theorem Opened.height (opened : Opened floor frame blocks controls) :
    controls.height = frame.opened + blocks.length := by
  rw [Stack.height_of_items opened, length_map, runs.opened, Nat.add_comm]

theorem canBranch_of_lands (opened : Opened floor frame blocks controls)
    (lands : Lands code.body code.shapes index blocks depth target block)
    (stacked : Stacked floor (block.label.reverse ++ (own ++ block.beneath)) operands) :
    frame.CanBranch operands controls depth := by
  obtain ⟨_, rest, _⟩ := lands
  have here : blocks[depth]? = some block := by
    rw [← head?_drop, rest]
    rfl
  have inside := lt_length here
  refine ⟨by rw [opened.height runs]; omega, controlOf frame.base block, ?_, Nat.le_add_right _ _,
    ?_⟩
  · rw [opened, getElem?_append_left (by simpa using inside), getElem?_map, here]
    rfl
  · have height := stacked.height runs
    simp only [length_append, length_reverse] at height
    simp only [controlOf]
    omega

end

theorem taken_eq (effect : Validation.Effect source locals params results operator)
    (plain : operator.isPlain = true) (other : ∀ index, operator ≠ .globalSet index) :
    taken operator = params.length := by
  cases operator <;> simp only [taken, Validation.Effect] at effect ⊢
  case globalSet index => exact absurd rfl (other index)
  all_goals grind [Operator.isPlain]

theorem inReach_of_fits (source : live.source = code.source) (sound : live.Sound)
    (stands : Stands code floor frame shape operands controls)
    (fits : Fits code.source code.type code.body code.shapes frame.position shape instr) :
    InReach live frame operands controls instr.operator := by
  obtain ⟨runs, _, stacked, opened⟩ := stands
  obtain ⟨-, -, nested, flow⟩ := fits
  -- A condition or an index lies on top of the operands.
  have below {kinds : List ValueKind} (top : shape.operands = [.i32] ++ kinds) :
      frame.Has operands 1 ∧ Stacked floor kinds (operands.drop 1) := by
    refine ⟨stacked.has runs top, ?_⟩
    rw [top] at stacked
    obtain ⟨_, _, rfl, _, stacked⟩ := stacked.pop
    exact stacked
  have params {first second : List ValueKind} (top : shape.operands = first.reverse ++ second) :
      frame.Has operands first.length := by
    rw [← length_reverse]
    exact stacked.has runs top
  have slot {kind : ValueKind} {index : Nat}
      (declared : (code.type.params ++ code.body.locals)[index]? = some kind) :
      index < frame.locals.size := by
    rw [← Array.length_toList, runs.locals.length]
    exact lt_length declared
  have shared {global : Global} {index : Nat}
      (declared : code.source.globals[index]? = some global) : index < live.globals.size := by
    rw [sound.globals, source]
    exact lt_size declared
  have listed {type : TableType} {index : Nat}
      (declared : code.source.tables[index]? = some type) : index < live.tables.size := by
    have sizes := congrArg Array.size sound.tables
    rw [Array.size_map, Array.size_map, source] at sizes
    rw [sizes]
    exact lt_size declared
  obtain ⟨operator, _⟩ := instr
  cases operator
  case unreachable | otherwise => exact stacked.has runs (nil_append _).symm
  case enter form note =>
    cases form with
    | block | loop =>
      obtain ⟨block, known, _, _, _, top, _⟩ := flow
      refine ⟨block.type, runs.source ▸ known, ?_⟩
      rw [Validation.conditionKinds, length_nil, Nat.zero_add]
      exact params top
    | conditional =>
      obtain ⟨block, _, known, _, _, top, _⟩ := flow
      refine ⟨block.type, runs.source ▸ known, ?_⟩
      have has := @params (block.type.params ++ [.i32]) block.beneath
        (by simpa [Block.entry] using top)
      rw [length_append] at has
      rw [Nat.add_comm]
      exact has
  case finish =>
    obtain ⟨block, outer, blocks, _, top, _⟩ := flow
    have height := opened.height runs
    rw [blocks, length_cons] at height
    refine ⟨by omega, fun _ => ?_⟩
    obtain rfl : outer = [] := eq_nil_of_length_eq_zero (by omega)
    rw [top, blocks] at nested
    rw [Normal.eq_body_of_nested_singleton nested] at top
    rw [runs.results]
    exact params top
  case branch depth =>
    obtain ⟨_, target, block, own, _, lands, operands⟩ := flow
    exact canBranch_of_lands runs opened lands (operands ▸ stacked)
  case branchIf depth =>
    obtain ⟨target, block, own, _, _, lands, top, _⟩ := flow
    obtain ⟨has, stacked⟩ := below top
    exact ⟨has, canBranch_of_lands runs opened lands stacked⟩
  case branchTable targets fallback =>
    obtain ⟨_, _, rest, top, lands⟩ := flow
    obtain ⟨has, stacked⟩ := below top
    refine ⟨has, fun depth member => ?_⟩
    obtain ⟨entry, here⟩ := mem_iff_getElem?.mp member
    obtain ⟨target, block, own, _, lands, kinds⟩ := lands entry depth here
    exact canBranch_of_lands runs opened lands (kinds ▸ stacked)
  case leave =>
    obtain ⟨_, rest, top⟩ := flow
    unfold InReach
    rw [runs.results]
    exact params top
  case call function =>
    obtain ⟨_, _, rest, declared, top, _⟩ := flow
    exact ⟨_, runs.source ▸ declared, params top⟩
  case tailCall function =>
    obtain ⟨_, callee, rest, declared, _, top⟩ := flow
    exact ⟨callee, runs.source ▸ declared, params top⟩
  case callIndirect table typeIndex =>
    obtain ⟨_, _, rest, ⟨type, kind, declared, there, _, rfl, rfl⟩, top, _⟩ := flow
    have has := params top
    rw [length_append] at has
    exact ⟨listed there, type, runs.source ▸ declared, has⟩
  case tailCallIndirect table typeIndex =>
    obtain ⟨_, callee, kind, rest, declared, there, _, _, top⟩ := flow
    have has := @params (callee.params ++ [.i32]) rest (by simpa using top)
    rw [length_append] at has
    exact ⟨listed there, callee, runs.source ▸ declared, has⟩
  case localGet index =>
    obtain ⟨_, _, _, ⟨kind, declared, _⟩, _⟩ := flow
    exact slot declared
  case localSet index | localTee index =>
    obtain ⟨_, _, rest, ⟨kind, declared, rfl, _⟩, top, _⟩ := flow
    exact ⟨slot declared, params top⟩
  case globalGet index =>
    obtain ⟨_, _, _, ⟨global, declared, _⟩, _⟩ := flow
    exact shared declared
  case globalSet index =>
    obtain ⟨_, _, rest, ⟨global, declared, _, rfl, _⟩, top, _⟩ := flow
    exact ⟨shared declared, params top⟩
  all_goals
    obtain ⟨_, _, rest, effect, top, _⟩ := flow
    have has := params top
    rw [← taken_eq effect rfl (by rintro _ ⟨⟩)] at has
    exact has

/-- A frame that goes on in one of the ways that its type allows does not fail otherwise. -/
theorem Goes.faultless (goes : Goes code floor result) : Faultless result.1 := by
  intro trap failed
  cases goes with
  | trap _ known =>
    cases failed
    exact known
  | run | leave | call | compiled | imported | foreign => cases failed

end Reach

end Interpreted

/-! ## Frames on the shared stacks -/

namespace World

variable (reading : Module → Binary.Sections)

/-- How bodies that wait lie on the stacks that their thread shares: each above a floor, on which
the next one lies in the same way. -/
def BodiesLie : Stack UInt64 → Stack Interpreted.Control → List Context → Prop
  | _, _, [] => True
  | payloads, controls, .body frame :: rest =>
    ∃ (code : Interpreted.Code) (floor : Interpreted.Floor) (results : List ValueKind),
      code.Reads reading ∧
      Interpreted.Awaits code floor frame results payloads controls ∧
      BodiesLie floor.operands floor.controls rest
  | _, _, .threadEnd outer _ :: rest => BodiesLie outer.payloads outer.controls rest
  | payloads, controls, _ :: rest => BodiesLie payloads controls rest

variable {reading} {ground : Ground} {store : Store} {thread : Thread} {stack : List Context}
  {expect : Expect} {world : World}

theorem RunsBody.reads (runs : RunsBody reading store thread code)
    (lawful : store.Lawful reading) : code.Reads reading := by
  obtain ⟨_, found, origin, _⟩ := runs.hosts
  exact ⟨origin ▸ lawful.reads found, runs.shapes⟩

theorem Waits.bodiesLie (waits : Waits reading ground store thread stack expect)
    (lawful : store.Lawful reading) : BodiesLie reading thread.payloads thread.controls stack := by
  induction waits with
  | ground => trivial
  | body runs awaits _ ih | bodyValues runs awaits _ ih =>
    exact ⟨_, _, _, runs.reads lawful, awaits, ih lawful⟩
  | starting _ _ ih => exact ih (lawful.truncate _)
  | unit _ _ _ ih | unitValues _ _ _ ih
  | unitEntry _ _ ih | bodyEntry _ _ ih
  | threadEnd _ _ _ _ ih | reentryEnd _ ih
  | hostResult _ ih | hostCall _ _ _ ih
  | hostInvoke _ _ _ ih | hostInstantiate _ _ ih => exact ih lawful

/-- What waits lies on what the thread holds, unless a trap has left its stacks in disorder. -/
theorem Sound.bodiesLie (sound : Sound reading ground world) :
    ∃ payloads controls, BodiesLie reading payloads controls world.stack ∧
      ((∀ trap, world.control ≠ .done (.trap trap)) →
        payloads.items <:+ world.thread.payloads.items ∧
          controls.items <:+ world.thread.controls.items) := by
  obtain ⟨_, thread, control, stack, _⟩ := world
  obtain ⟨lawful, poised⟩ := sound
  have whole : thread.payloads.items <:+ thread.payloads.items ∧
      thread.controls.items <:+ thread.controls.items := ⟨suffix_rfl, suffix_rfl⟩
  cases poised with
  | unit _ _ waits | host _ _ waits => exact ⟨_, _, waits.bodiesLie lawful, fun _ => whole⟩
  | call _ waits _ | callImport _ waits _
  | values _ waits | finished _ waits | created _ _ waits | unitReturned _ _ waits =>
    exact ⟨_, _, waits.bodiesLie lawful, fun _ => whole⟩
  | body _ _ stands waits =>
    obtain ⟨own, _, items⟩ := stands.operands
    exact ⟨_, _, waits.bodiesLie lawful, fun _ => ⟨⟨own, items.symm⟩, ⟨_, stands.controls.symm⟩⟩⟩
  | bodyReturned _ _ items waits =>
    exact ⟨_, _, waits.bodiesLie lawful, fun _ => ⟨⟨_, items.symm⟩, whole.2⟩⟩
  | trap trap waits => exact ⟨_, _, waits.bodiesLie lawful, fun other => absurd rfl (other trap)⟩

/-- Interpreted bodies are safe at every moment of a store whose modules are read from core
binaries. The state of every instance is what its module declares. A body that runs has the locals,
the operands and the open blocks that validation predicts in front of its next instruction, as many
blocks as the instruction is deep in and each as its type says, and it finds all that the
instruction reaches for. Bodies that wait lie beneath it, and lack only the results that they wait
for. -/
theorem bodies_stand_as_validated (arises : Arises reading world) :
    world.store.Sound ∧
    (∀ {frame : Interpreted.Frame}, world.control = .body frame →
      ∃ (code : Interpreted.Code) (floor : Interpreted.Floor) (shape : Shape)
        (instr : Instruction) (live : Instance),
        world.store.instances[world.thread.owner]? = some live ∧ live.source = code.source ∧
        code.Reads reading ∧
        Interpreted.Stands code floor frame shape world.thread.payloads
          world.thread.controls ∧
        code.body.instructions[frame.position]? = some instr ∧
        instr.depth + 1 = shape.blocks.length ∧
        Nested code.source code.type code.body shape.operands shape.blocks ∧
        Interpreted.InReach live frame world.thread.payloads world.thread.controls
          instr.operator ∧
        Faultless (Interpreted.step ⟨world.thread.owner, world.thread.payloads,
          world.thread.controls, world.store⟩ frame).1 ∧
        BodiesLie reading floor.operands floor.controls world.stack) ∧
    ∃ payloads controls, BodiesLie reading payloads controls world.stack ∧
      ((∀ trap, world.control ≠ .done (.trap trap)) →
        payloads.items <:+ world.thread.payloads.items ∧
          controls.items <:+ world.thread.controls.items) := by
  obtain ⟨ground, sound⟩ := arises.sound
  refine ⟨sound.lawful.sound, fun {frame} runs => ?_, sound.bodiesLie⟩
  obtain ⟨store, thread, control, stack, trace⟩ := world
  obtain ⟨lawful, poised⟩ := sound
  subst runs
  cases poised with
  | body runs idle stands waits =>
    rename_i code floor shape
    obtain ⟨live, found, origin, _⟩ := runs.hosts
    obtain ⟨instr, here, fits⟩ := code.typed.fits stands.here
    have inOrder := lawful.sound _ _ found
    refine ⟨code, floor, shape, instr, live, found, origin, runs.reads lawful, stands, here,
      fits.depth, fits.nested, Interpreted.inReach_of_fits origin inOrder stands fits, ?_,
      waits.bodiesLie lawful⟩
    have goes : Interpreted.Goes code floor
        (Interpreted.step ⟨thread.owner, thread.payloads, thread.controls, store⟩ frame) :=
      Interpreted.goes_step found origin inOrder stands
    exact goes.faultless

/-- The calls of an instance of a module that is read, as long as they have not ended. -/
theorem arises_callAfter (reads : source.Reads reading)
    (made : (withInstance source).result?.isSome)
    (busy : ∀ earlier < steps, (callAfter source function earlier).result? = none) :
    Arises reading (callAfter source function steps) := by
  have first : Arises reading (withInstance source) :=
    .start (.instantiate source {} .interpreted) (.first rfl) rfl
      ⟨reads, fun given => by cases given⟩
  exact (Arises.start (.call 0 function []) first made trivial).iterate busy

theorem bodies_stand_as_validated_tableCall : ∃ source frame reading,
    Module.parse tableCallBytes = .ok source ∧ Arises reading (callAfter source 1 2) ∧
      (callAfter source 1 2).control = .body frame ∧
      ∃ instr live, frame.body.instructions[frame.position]? = some instr ∧
        instr.operator = .callIndirect 0 0 ∧
        Interpreted.InReach live frame (callAfter source 1 2).thread.payloads
          (callAfter source 1 2).thread.controls instr.operator := by
  obtain ⟨sections, read⟩ := Option.isSome_iff_exists.mp
    (by decide +kernel : (Binary.Sections.ofBytes? tableCallBytes).isSome)
  obtain ⟨source, parsed, made, busy, stands⟩ := exists_ok (Module.parse tableCallBytes)
    (fun source => (withInstance source).result?.isSome ∧
      (∀ steps : Nat, steps < 2 → (callAfter source 1 steps).result? = none) ∧
      (callAfter source 1 2).operator? = some (.callIndirect 0 0)) (by decide +kernel)
  have arises : Arises (fun _ => sections) (callAfter source 1 2) :=
    arises_callAfter ⟨_, read, parsed⟩ made busy
  obtain ⟨_, safe, _⟩ := bodies_stand_as_validated arises
  obtain ⟨frame, instr, running, there, operator⟩ := exists_of_operator stands
  obtain ⟨code, _, _, _, live, _, _, _, standing, here, _, _, inReach, _⟩ := safe running
  rw [← standing.runs.body, there] at here
  cases here
  exact ⟨source, frame, _, parsed, arises, running, instr, live, there, operator, inReach⟩

end World

end TwinEngine
