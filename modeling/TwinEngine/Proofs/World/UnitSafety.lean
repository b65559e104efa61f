import TwinEngine.Proofs.World.Nesting

/-!
Contract: compiled units are safe in every run.

Owns: that the operands of a running unit have the depth that the check of its code gives to the
instruction in front of it, that all that the instruction reaches for is there, how units that wait
lie on the shared slots, and what a caller finds when its callee returns.

Does not own: that runs keep to types (`Proofs.World.Soundness`), from which all of this follows.
-/

namespace TwinEngine

open Machine hiding Instruction
open Compiled

namespace Compiled

variable {code : Code} {floor : Stack UInt32} {frame : Frame} {stance : Stance} {scene : Scene}

theorem Keeps.length (keeps : Keeps locals own boxes stance) : own.length = stance.depth := by
  cases stance with
  | plain depth => exact keeps.1
  | boxed slots depth =>
    obtain ⟨rest, _, rfl, length, _⟩ := keeps
    rw [List.length_cons, length]
    rfl
  | beneath slots depth =>
    obtain ⟨_, rest, _, rfl, length, _⟩ := keeps
    rw [List.length_cons, List.length_cons, length]
    rfl
  | arrived slots =>
    rw [keeps.1]
    rfl

/-- A frame that stands as the check says has the depth of its instruction, and finds there all that
the instruction takes or touches. -/
theorem Stands.inReach (stands : Stands code floor frame stance operands boxes) :
    ∃ instr pops pushes, frame.unit.code[frame.position]? = some instr ∧
      frame.unit.depthAt frame.position = some stance.depth ∧
      operands.height = frame.base + stance.depth ∧ stance.depth ≤ frame.unit.maxStack ∧
      frame.unit.stackEffect instr = .ok (pops, pushes) ∧ pops ≤ stance.depth ∧
      ∀ slot, LoadedUnit.touchedLocal instr = some slot → slot < frame.locals.size := by
  obtain ⟨runs, here, _, items, keeps⟩ := stands
  obtain ⟨consistent, greatest⟩ := LoadedUnit.consistent_of_verify code.verified
  obtain ⟨instr, _, found, checked, _⟩ := consistent.step here.2
  obtain ⟨touches, ⟨pops, pushes, effect, enough, _⟩, _⟩ :=
    LoadedUnit.checkInstruction_eq_ok_iff.mp checked
  rw [runs.unit]
  refine ⟨instr, pops, pushes, found, here.2, ?_, greatest _ _ here.2, effect, enough,
    fun slot touched => ?_⟩
  · rw [Stack.height_of_items items, keeps.length, runs.base, Nat.add_comm]
  · have inside := touches slot touched
    rw [runs.locals]
    omega

/-- How many slots a call takes to find its callee: the index of one through a table. -/
def indexSlots : Machine.Instruction Nat → Nat
  | .plain (.callIndirect _ _ _) => 1
  | _ => 0

/-- What a move leaves of its frame and of the operands, if the frame waits: all local slots, and
what lies beneath the arguments and the index. -/
def Move.Leaves (index : Nat) (locals : Array UInt32) (operands after : Stack UInt32) : Move → Prop
  | .call next _ =>
    next.locals = locals ∧ ∃ chosen, chosen.length = index ∧ operands.items = chosen ++ after.items
  | .ask next _ _ type =>
    next.locals = locals ∧ ∃ taken, taken.length = index + argSlots type ∧
      operands.items = taken ++ after.items
  | .run _ | .leave => True

section Calls

variable {own : List UInt32} {move : Move} {after : Scene} {later : Stance}

theorem leaves_callDirect (runs : frame.Runs code floor)
    (moves : Moves code.unit (.call callee function signature) stance later)
    (items : scene.operands.items = own ++ floor.items)
    (keeps : Keeps frame.locals own scene.boxes stance)
    (stepped : act scene frame (.call callee function signature) = (.ok move, after)) :
    move.Leaves 0 frame.locals scene.operands after.operands := by
  obtain ⟨_, _, found, rfl, rfl⟩ := moves
  obtain ⟨args, rest, rfl, rfl, passes⟩ := keeps.calling
  have items : scene.operands.items = args ++ (Stack.ofItems (rest ++ floor.items)).items := by
    rw [items, List.append_assoc]
    rfl
  obtain ⟨_, boxes, popped, _⟩ := passes.popArguments items
  have asks {target : Target}
      (done : callDirect.ask scene frame signature target = (.ok move, after)) :
      move.Leaves 0 frame.locals scene.operands after.operands := by
    simp only [callDirect.ask, signatureOf_eq runs found, popped] at done
    cases done
    exact ⟨rfl, args, by rw [passes.length, Nat.zero_add], items⟩
  cases callee with
  | unit =>
    cases stepped
    exact ⟨rfl, [], rfl, rfl⟩
  | imported | interpreted => exact asks stepped

theorem leaves_callIndirect (runs : frame.Runs code floor)
    (moves : Moves code.unit (.callIndirect typeIndex table signature) stance later)
    (items : scene.operands.items = own ++ floor.items)
    (keeps : Keeps frame.locals own scene.boxes stance)
    (stepped : act scene frame (.callIndirect typeIndex table signature) = (.ok move, after)) :
    move.Leaves 1 frame.locals scene.operands after.operands := by
  obtain ⟨_, _, found, rfl, rfl⟩ := moves
  obtain ⟨element, args, rest, rfl, rfl, passes⟩ := keeps.choosing
  have below : (Stack.ofItems (args ++ (rest ++ floor.items))).items =
      args ++ (Stack.ofItems (rest ++ floor.items)).items := rfl
  have standing : scene.operands =
      (Stack.ofItems (args ++ (rest ++ floor.items))).push element := by
    apply Stack.ext_items
    rw [items, List.cons_append, List.append_assoc]
    rfl
  obtain ⟨_, boxes, popped, _⟩ := passes.popArguments below
  simp only [act, callIndirect, signatureOf_eq runs found, standing, pop_push] at stepped
  split at stepped
  · cases stepped
  · split at stepped
    · cases stepped
      rw [standing]
      exact ⟨rfl, [element], rfl, rfl⟩
    · simp only [popped] at stepped
      cases stepped
      rw [standing]
      refine ⟨rfl, element :: args, ?_, rfl⟩
      rw [List.length_cons, passes.length, Nat.add_comm]

end Calls

theorem leaves_step (found : scene.store.instances[scene.owner]? = some live)
    (stands : Stands code floor frame stance scene.operands scene.boxes)
    (stepped : step scene frame = (.ok move, after)) :
    ∃ instr, frame.unit.code[frame.position]? = some instr ∧
      move.Leaves (indexSlots instr) frame.locals scene.operands after.operands := by
  obtain ⟨runs, here, own, items, keeps⟩ := stands
  obtain ⟨instr, _, standing, steps, -, -⟩ := here.step
  rw [← runs.unit] at standing
  refine ⟨instr, standing, ?_⟩
  obtain ⟨unit, position, base, locals⟩ := frame
  have moved : Frame.Runs code floor ⟨unit, position + 1, base, locals⟩ := { runs with }
  cases instr with
  | jump condition =>
    cases condition <;> simp only [step, standing] at stepped <;> cases stepped <;> trivial
  | switch =>
    simp only [step, standing] at stepped
    cases stepped
    trivial
  | plain action =>
    simp only [step, standing] at stepped
    by_cases straight : action.isStraight = true
    · obtain ⟨pops, _, _, effect, rfl, rfl⟩ := moves_straight straight steps
      have enough : pops ≤ own.length := by
        have := keeps.1
        omega
      obtain ⟨_, count, operands⟩ := exists_taken items enough
      rw [act_straight found straight effect count operands] at stepped
      unfold conclude at stepped
      split at stepped <;> cases stepped
      trivial
    · cases action
      case trap reason => cases reason <;> cases stepped
      case checkInterrupt =>
        obtain ⟨goes, _⟩ := Prod.mk.inj stepped
        split at goes <;> cases goes
        trivial
      case load width slot | store width slot => cases width <;> cases stepped <;> trivial
      case leave => cases stepped; trivial
      case call =>
        have leaves := leaves_callDirect moved steps items keeps stepped
        exact leaves
      case callIndirect =>
        have leaves := leaves_callIndirect moved steps items keeps stepped
        exact leaves
      case box =>
        simp only [act, boxTop] at stepped
        split at stepped <;> cases stepped
        trivial
      case unbox =>
        simp only [act, unboxTop] at stepped
        split at stepped <;> cases stepped
        trivial
      all_goals exact absurd rfl straight

/-- A frame that goes on in one of the ways that its type allows does not fail otherwise. -/
theorem Goes.faultless (goes : Goes code floor result) : Faultless result.1 := by
  intro trap failed
  cases goes with
  | trap _ known =>
    cases failed
    exact known
  | run | leave | call | ask => cases failed

end Compiled

/-! ## Units on the shared slots -/

namespace World

/-- How units that wait lie on the slots that their thread shares: each above a floor, on which the
next one lies in the same way. -/
def UnitsLie : Stack UInt32 → List Context → Prop
  | _, [] => True
  | slots, .unit frame :: rest =>
    ∃ (code : Code) (floor : Stack UInt32) (callee : FunctionType),
      Awaits code floor frame callee slots ∧ UnitsLie floor rest
  | slots, .unitValues frame callee :: rest =>
    ∃ (code : Code) (floor : Stack UInt32),
      Awaits code floor frame callee slots ∧ UnitsLie floor rest
  | slots, .unitEntry _ base :: rest => base = slots.height ∧ UnitsLie slots rest
  | _, .threadEnd outer _ :: rest => UnitsLie outer.slots rest
  | slots, _ :: rest => UnitsLie slots rest

variable {reading : Module → Binary.Sections} {ground : Ground} {store : Store} {thread : Thread}
  {stack : List Context} {expect : Expect} {world : World}

theorem Waits.unitsLie (waits : Waits reading ground store thread stack expect) :
    UnitsLie thread.slots stack := by
  induction waits with
  | ground => trivial
  | unit _ awaits _ ih => exact ⟨_, _, _, awaits, ih⟩
  | unitValues _ awaits _ ih => exact ⟨_, _, awaits, ih⟩
  | unitEntry _ _ ih => exact ⟨rfl, ih⟩
  | body _ _ _ ih | bodyValues _ _ _ ih
  | bodyEntry _ _ ih | threadEnd _ _ _ _ ih
  | reentryEnd _ ih | hostResult _ ih
  | hostCall _ _ _ ih | hostInvoke _ _ _ ih
  | hostInstantiate _ _ ih | starting _ _ ih => exact ih

/-- What waits lies on what the thread holds, unless a trap has left its slots in disorder. -/
theorem Sound.unitsLie (sound : Sound reading ground world) : ∃ slots, UnitsLie slots world.stack ∧
      ((∀ trap, world.control ≠ .done (.trap trap)) →
        slots.items <:+ world.thread.slots.items) := by
  obtain ⟨_, thread, control, stack, _⟩ := world
  obtain ⟨_, poised⟩ := sound
  cases poised with
  | unit _ stands waits =>
    obtain ⟨own, items, _⟩ := stands.keeps
    exact ⟨_, waits.unitsLie, fun _ => ⟨own, items.symm⟩⟩
  | unitReturned items _ waits => exact ⟨_, waits.unitsLie, fun _ => ⟨_, items.symm⟩⟩
  | host _ _ waits | call _ waits _ | callImport _ waits _ | values _ waits | finished _ waits
  | created _ _ waits | body _ _ _ waits | bodyReturned _ _ _ waits =>
    exact ⟨_, waits.unitsLie, fun _ => List.suffix_rfl⟩
  | trap trap waits => exact ⟨_, waits.unitsLie, fun other => absurd rfl (other trap)⟩

/-! ## Calls and returns -/

variable {frame : Compiled.Frame} {callee : FunctionType}

theorem Poised.unit_leaves (poised : Poised reading ground store thread (.unit frame) stack)
    (stepped : Compiled.step ⟨thread.owner, (thread.program.map Program.dispatch).getD #[],
      thread.boxes, thread.slots, store⟩ frame = (.ok move, scene)) :
    ∃ instr, frame.unit.code[frame.position]? = some instr ∧
      move.Leaves (Compiled.indexSlots instr) frame.locals thread.slots scene.operands := by
  cases poised with
  | unit runs stands =>
    obtain ⟨_, found, _⟩ := runs.hosts
    have leaves := Compiled.leaves_step (by exact found) (by exact stands) stepped
    exact leaves

/-- The frame of a unit calls a function of a type, and waits in a context. -/
inductive CallsOut (world : World) (frame next : Frame) (callee : FunctionType) :
    Context → Prop where
  | unit {function : Nat} {live : Instance} {scene : Scene}
      (moves : world.unitStep frame = (.ok (.call next function), scene))
      (room : tooDeep scene.store = false)
      (found : world.store.instances[world.thread.owner]? = some live)
      (declared : live.source.functionType function = some callee) :
      CallsOut world frame next callee (.unit next)
  | values {target : Target} {args : List Value} {scene : Scene}
      (moves : world.unitStep frame = (.ok (.ask next target args callee), scene)) :
      CallsOut world frame next callee (.unitValues next callee)

/-- What a part of a run that is to give slots hands over. -/
theorem Sound.handed_unit (sound : Sound reading ⟨footing now, .unit callee⟩ world)
    (handed : Handed [] world) : (∃ trap, world.control = .done (.trap trap)) ∨
      world.control = .done .returned ∧ ∃ returned, returned.length = returnSlots callee ∧
        world.thread.slots.items = returned ++ now.slots.items := by
  obtain ⟨_, thread, control, _⟩ := world
  obtain ⟨_, poised⟩ := sound
  obtain ⟨empty, _, done⟩ := handed
  subst empty done
  cases poised with
  | unitReturned items returns waits =>
    cases waits with
    | ground _ same expects =>
      cases expects
      obtain ⟨_, _, _, slots, _⟩ := Thread.mk.inj same
      exact .inr ⟨rfl, _, returns.length, slots ▸ items⟩
  | trap trap => exact .inl ⟨trap, rfl⟩
  | values _ waits | finished _ waits | bodyReturned _ _ _ waits | created _ _ waits =>
    cases waits with
    | ground _ _ expects => cases expects

theorem asking_onto (store : Store) (thread : Thread) (stack bottom : List Context)
    (trace : List HostCall) (args : List Value) (target : Target) :
    asking store thread (stack ++ bottom) trace args target =
      (asking store thread stack trace args target).onto bottom := by
  cases target with
  | interpreted => exact (starts_onto _ _ _ _ _ 0 _ _).2.1
  | imported | foreign => rfl

section Returning

variable {frame next : Compiled.Frame} {callee : FunctionType} {wait : Context} {part : World}
  {rest : Stack UInt32}

/-- What a unit calls is a part of a run. It stands on the operands beneath the arguments, and it is
to give what the unit waits for. -/
inductive Serves (reading : Module → Binary.Sections) (thread : Thread) (next : Frame)
    (callee : FunctionType) (part : World) : Context → Prop where
  | unit : Sound reading ⟨footing thread, .unit callee⟩ part →
      Serves reading thread next callee part (.unit next)
  | values : Sound reading ⟨footing thread, .values callee.results⟩ part →
      Serves reading thread next callee part (.unitValues next callee)

theorem CallsOut.serves (sound : Sound reading ground world)
    (running : world.control = .unit frame) (calls : CallsOut world frame next callee wait) :
    next.locals = frame.locals ∧ ∃ instr part taken rest,
      frame.unit.code[frame.position]? = some instr ∧ world.step = part.onto (wait :: world.stack) ∧
      taken.length = Compiled.indexSlots instr + argSlots callee ∧
      world.thread.slots.items = taken ++ rest.items ∧
      Serves reading { world.thread with slots := rest } next callee part wait := by
  obtain ⟨store, thread, control, stack, trace⟩ := world
  obtain ⟨lawful, poised⟩ := sound
  cases calls with
  | @unit function live scene moves room found declared =>
    subst running
    obtain ⟨instr, here, locals, index, count, before⟩ := poised.unit_leaves moves
    obtain ⟨code, floor, owner, holds, lawful, runs, goes, _⟩ := poised.unit_goes lawful moves
    cases goes with
    | @call _ _ type args rest _ typed items passes awaits =>
      obtain ⟨_, there, origin, _⟩ := runs.hosts
      obtain ⟨_, has, _⟩ := runs.unit
      obtain ⟨_, again, continues⟩ := holds.exists_before there
      cases found.symm.trans again
      have same : type = callee := by
        rw [← origin, continues.source, declared] at typed
        cases typed
        rfl
      subst same
      let now := { thread with boxes := scene.boxes, slots := scene.operands }
      have hosts : Hosts reading scene.store now code.source := runs.hosts
      obtain ⟨_, first, _, chosen, rfl, enters, runs, stands⟩ :=
        hosts.exists_enter lawful has typed items passes
      refine ⟨locals, instr, ⟨{ scene.store with depth := scene.store.depth + 1 },
        { now with slots := rest }, .unit first, [], trace⟩, index ++ args, rest, here, ?_,
        by rw [List.length_append, count, passes.length], ?_,
        .unit ⟨lawful.of_instances rfl, .unit ⟨runs.hosts, runs.unit⟩ stands
          (.ground _ rfl rfl)⟩⟩
      · rw [step_unit moves, owner]
        dsimp only [now] at chosen enters
        simp [moveUnit, enterUnit, room, chosen, enters, onto, now]
      · rw [before, items, List.append_assoc]
  | @values target args scene moves =>
    subst running
    obtain ⟨instr, here, locals, taken, count, before⟩ := poised.unit_leaves moves
    obtain ⟨code, floor, owner, _, lawful, runs, goes, _⟩ := poised.unit_goes lawful moves
    cases goes with
    | ask answers kinds idle awaits =>
      let now := { thread with boxes := scene.boxes, slots := scene.operands }
      refine ⟨locals, instr, asking scene.store now [] trace args target, taken,
        scene.operands, here, ?_, count, before, .values ?_⟩
      · rw [step_unit moves, owner, moveUnit_ask]
        exact asking_onto _ now [] _ _ _ _
      · exact sound_asking trace lawful runs.hosts answers idle kinds trivial (.ground _ rfl rfl)

variable (serves : Serves reading thread next callee part wait)

include serves

theorem Serves.iterate (count : Nat) :
    Serves reading thread next callee (World.step^[count] part) wait := by
  cases serves with
  | unit sound => exact .unit (sound.iterate count)
  | values sound => exact .values (sound.iterate count)

/-- A unit that is handed what it waits for goes on above the operands beneath its arguments. -/
theorem Serves.resumes (handed : Handed [] part) : (∃ trap, part.control = .done (.trap trap)) ∨
      ∃ returned, returned.length = returnSlots callee ∧
        (part.onto (wait :: stack)).step.control = .unit next ∧
        (part.onto (wait :: stack)).step.stack = stack ∧
        (part.onto (wait :: stack)).step.thread.slots.items = returned ++ thread.slots.items := by
  obtain ⟨_, now, control, above, _⟩ := part
  cases serves with
  | unit sound =>
    rcases sound.handed_unit handed with trapped | ⟨rfl, returned, length, items⟩
    · exact .inl trapped
    · obtain ⟨rfl, _⟩ := handed
      exact .inr ⟨returned, length, rfl, rfl, items⟩
  | values sound =>
    rcases sound.handed handed with trapped | ⟨values, rfl, kinds, idle, same⟩
    · exact .inl trapped
    · obtain ⟨rfl, _⟩ := handed
      obtain ⟨_, _, _, slots, _⟩ := Thread.mk.inj same
      obtain ⟨returned, items, returns⟩ := returns_pushResults idle kinds now.slots
      exact .inr ⟨returned, returns.length, rfl, rfl,
        items.trans (congrArg (returned ++ ·.items) slots)⟩

end Returning

/-- A unit of the program of its thread stands in front of an instruction. The operands above its
base have the one depth that the check gives to the instruction, which is within what the unit says
it needs, and all that the instruction takes, touches or goes on to is there. -/
structure InOrder (world : World) (frame : Frame) : Prop where
  unit : ∃ (program : Program) (function : Nat), world.thread.program = some program ∧
    program.units[function]? = some frame.unit
  verified : frame.unit.verify = .ok frame.unit.maxStack
  inReach : ∃ instr depth pops pushes, frame.unit.code[frame.position]? = some instr ∧
    frame.unit.depthAt frame.position = some depth ∧
    world.thread.slots.height = frame.base + depth ∧ depth ≤ frame.unit.maxStack ∧
    frame.unit.stackEffect instr = .ok (pops, pushes) ∧ pops ≤ depth ∧
    ∀ slot, LoadedUnit.touchedLocal instr = some slot → slot < frame.locals.size
  faultless : Faultless (world.unitStep frame).1

section

variable (sound : Sound reading ground world) (running : world.control = .unit frame)

include sound running

theorem Sound.inOrder : InOrder world frame ∧ ∃ floor : Stack UInt32, frame.base = floor.height ∧
      floor.items <:+ world.thread.slots.items ∧ UnitsLie floor world.stack := by
  obtain ⟨_, thread, _, stack, _⟩ := world
  obtain ⟨lawful, poised⟩ := sound
  subst running
  obtain ⟨_, _, _, _, _, _, goes, _⟩ := poised.unit_goes lawful rfl
  cases poised with
  | @unit _ _ _ code floor _ _ runs stands waits =>
    obtain ⟨program, has, unit⟩ := runs.unit
    obtain ⟨instr, pops, pushes, inReach⟩ := stands.inReach
    obtain ⟨own, items, _⟩ := stands.keeps
    refine ⟨⟨⟨program, code.function, has, ?_⟩, ?_, ⟨instr, _, pops, pushes, inReach⟩,
      goes.faultless⟩, floor, stands.runs.base, ⟨own, items.symm⟩, waits.unitsLie⟩
    · rw [stands.runs.unit]
      exact unit
    · rw [stands.runs.unit]
      exact code.verified

end

end World

end TwinEngine
