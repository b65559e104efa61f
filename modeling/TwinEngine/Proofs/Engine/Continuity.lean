import TwinEngine.Engine.Compiled
import TwinEngine.Engine.Interpreted
import TwinEngine.Proofs.Storage.Overwriting

/-!
Contract: what code leaves as it is in the instances of a store.

Owns: that an instance keeps its module, its engine, its imports and the shape of its state,
whatever the code of either engine does to it, and that code stays in its instance.

Does not own: how instances come and go (`Proofs.World.Evolution`).
-/

namespace TwinEngine

/-- An instance at a later time: its state may have changed, but not what it is an instance of. -/
structure Instance.Continues (before after : Instance) : Prop where
  source : after.source = before.source
  engine : after.engine = before.engine
  imports : after.imports = before.imports
  memory : after.memory.isSome = before.memory.isSome
  tables : after.tables.map Table.element = before.tables.map Table.element
  globals : after.globals.size = before.globals.size
  data : after.data.size = before.data.size
  elements : after.elements.size = before.elements.size

namespace Instance

theorem Continues.refl (live : Instance) : live.Continues live :=
  ⟨rfl, rfl, rfl, rfl, rfl, rfl, rfl, rfl⟩

theorem Continues.trans {first second third : Instance} (left : first.Continues second)
    (right : second.Continues third) : first.Continues third where
  source := right.source.trans left.source
  engine := right.engine.trans left.engine
  imports := right.imports.trans left.imports
  memory := right.memory.trans left.memory
  tables := right.tables.trans left.tables
  globals := right.globals.trans left.globals
  data := right.data.trans left.data
  elements := right.elements.trans left.elements

/-- An instance at a later time, with the globals that it had. -/
structure Settles (before after : Instance) : Prop extends Continues before after where
  values : after.globals = before.globals

theorem Settles.refl (live : Instance) : live.Settles live := ⟨.refl live, rfl⟩

theorem Settles.trans {first second third : Instance} (left : first.Settles second)
    (right : second.Settles third) : first.Settles third :=
  ⟨left.toContinues.trans right.toContinues, right.values.trans left.values⟩

def Lasting {α : Type} (effect : Effect Instance α) : Prop :=
  ∀ live : Instance, live.Continues (effect live).2

def Gentle {α : Type} (effect : Effect Instance α) : Prop :=
  ∀ live : Instance, live.Settles (effect live).2

theorem Gentle.lasting {α : Type} {effect : Effect Instance α} (gentle : Gentle effect) :
    Lasting effect :=
  fun live => (gentle live).toContinues

theorem gentle_changeMemory (change : Memory → Except Trap Memory) :
    Gentle (changeMemory change) := by
  intro _
  unfold changeMemory
  split
  · split <;> exact ⟨{ Continues.refl _ with }, rfl⟩
  · exact Settles.refl _

theorem gentle_growMemory (delta : Nat) : Gentle (growMemory delta) := by
  intro _
  unfold growMemory
  split
  · exact ⟨{ Continues.refl _ with }, rfl⟩
  · exact Settles.refl _

theorem gentle_initMemory (segment target source length : Nat) :
    Gentle (initMemory segment target source length) := by
  intro live
  unfold initMemory
  split
  · exact gentle_changeMemory _ live
  · exact Settles.refl _

theorem gentle_dropData (segment : Nat) : Gentle fun live => (.ok (), live.dropData segment) :=
  fun live => ⟨{ Continues.refl live with data := by simp [dropData] }, rfl⟩

theorem gentle_dropElements (segment : Nat) :
    Gentle fun live => (.ok (), live.dropElements segment) :=
  fun live => ⟨{ Continues.refl live with elements := by simp [dropElements] }, rfl⟩

theorem lasting_setGlobal (index : Nat) (payload : UInt64) :
    Lasting fun live => (.ok (), live.setGlobal index payload) :=
  fun live => { Continues.refl live with globals := by simp [setGlobal] }

/-- A table that is put in the place of one of its kind. -/
theorem settles_setTable {live : Instance} {table changed : Table}
    (found : live.table index = .ok table) (same : changed.element = table.element) :
    live.Settles { live with tables := live.tables.setIfInBounds index changed } := by
  refine ⟨{ Continues.refl live with tables := ?_ }, rfl⟩
  have here : live.tables[index]? = some table := by
    unfold Instance.table at found
    split at found
    · cases found
      assumption
    · cases found
  apply Array.ext_getElem?
  intro place
  simp only [Array.getElem?_map, Array.getElem?_setIfInBounds]
  split
  · rename_i equal
    subst equal
    have inside := (Array.getElem?_eq_some_iff.mp here).1
    rw [if_pos inside, here]
    simp [same]
  · rfl

theorem gentle_changeTable {change : Table → Except Trap Table} (index : Nat)
    (keeps : ∀ {table changed}, change table = .ok changed →
      changed.element = table.element) : Gentle (changeTable index change) := by
  intro live
  unfold changeTable
  cases found : live.table index with
  | error trap => exact Settles.refl _
  | ok table =>
    cases changed : change table with
    | error trap =>
      simp only [bind, Except.bind, changed]
      exact Settles.refl _
    | ok =>
      simp only [bind, Except.bind, changed]
      exact settles_setTable found (keeps changed)

end Instance

namespace Table

variable {table changed : Table}

theorem element_of_set (done : table.set index payload = .ok changed) :
    changed.element = table.element := ((checked_set ..).of_ok done).1

theorem element_of_fill (done : table.fill start payload length = .ok changed) :
    changed.element = table.element := ((checked_fill ..).of_ok done).1

theorem element_of_copyFrom (done : table.copyFrom target payloads source length = .ok changed) :
    changed.element = table.element := ((checked_copyFrom ..).of_ok done).1

theorem element_of_copyWithin (done : table.copyWithin target source length = .ok changed) :
    changed.element = table.element := ((checked_copyWithin ..).of_ok done).1

theorem element_grow (table : Table) (delta : Nat) (payload : UInt64) :
    (table.grow delta payload).2.element = table.element := by
  simp only [grow]
  split <;> rfl

end Table

namespace Instance

theorem gentle_growTable (index delta : Nat) (payload : UInt64) :
    Gentle (growTable index delta payload) := by
  intro _
  unfold growTable
  split
  · exact settles_setTable ‹_› (Table.element_grow _ _ _)
  · exact Settles.refl _

theorem gentle_copyTable (targetTable sourceTable target source length : Nat) :
    Gentle (copyTable targetTable sourceTable target source length) := by
  intro live
  unfold copyTable
  split
  · exact gentle_changeTable _ Table.element_of_copyWithin live
  · split
    · exact gentle_changeTable _ Table.element_of_copyFrom live
    · exact Settles.refl _

theorem gentle_initTable (segment index target source length : Nat) :
    Gentle (initTable segment index target source length) := by
  intro live
  unfold initTable
  split
  · exact gentle_changeTable _ Table.element_of_copyFrom live
  · exact Settles.refl _

end Instance

/-! ## Stores -/

/-- A store at a later time, with the same instances in their places. -/
structure Store.Continues (before after : Store) : Prop where
  size : after.instances.size = before.instances.size
  instances : ∀ {id : Nat} {live : Instance}, before.instances[id]? = some live →
    ∃ later, after.instances[id]? = some later ∧ live.Continues later
  limits : after.limits = before.limits
  depth : after.depth = before.depth
  reentry : after.reentry = before.reentry

variable {α : Type} {effect : Effect Instance α}

namespace Store

variable (store : Store)

include store

theorem Continues.refl : store.Continues store :=
  ⟨rfl, fun found => ⟨_, found, .refl _⟩, rfl, rfl, rfl⟩

theorem continues_takeInterrupt : store.Continues store.takeInterrupt.2 :=
  ⟨rfl, fun found => ⟨_, found, .refl _⟩, rfl, rfl, rfl⟩

theorem instances_access (id : Nat) (effect : Effect Instance α) :
    (store.access id effect).2.instances =
      store.instances.setIfInBounds id (effect (store.instances.getD id default)).2 := by
  unfold access detach
  split
  · rename_i inside
    simp [Array.getElem?_eq_getElem inside]
  · rw [Array.setIfInBounds_eq_of_size_le (by omega)]

theorem continues_access (id : Nat) (lasting : Instance.Lasting effect) :
    store.Continues (store.access id effect).2 := by
  have same := store.instances_access id effect
  refine ⟨by simp [same], fun {_ live} found => ?_, ?_, ?_, ?_⟩
  · rw [same, Array.getElem?_setIfInBounds]
    split
    · rename_i equal
      subst equal
      have inside := (Array.getElem?_eq_some_iff.mp found).1
      rw [if_pos inside]
      refine ⟨_, rfl, ?_⟩
      rw [Array.getD_eq_getD_getElem?, found]
      exact lasting live
    · exact ⟨live, found, .refl _⟩
  all_goals
    unfold access
    split <;> rfl

end Store

/-! ## Interpreted code -/

namespace Interpreted

open Instance Store

def Move.frame? : Move → Option Frame
  | .run frame | .call frame _ | .compiled frame _ _ | .imported frame _ _
  | .foreign frame _ _ _ => some frame
  | .leave => none

/-- The instances stay what they are, and code stays in its instance and in its module. -/
structure Stays (scene : Scene) (frame : Frame) (result : Except Trap Move × Scene) : Prop where
  store : scene.store.Continues result.2.store
  owner : result.2.owner = scene.owner
  source : ∀ {move : Move} {next : Frame}, result.1 = .ok move → move.frame? = some next →
    next.source = frame.source

namespace Stays

variable {scene after : Scene} {frame : Frame}

theorem of_error (store : scene.store.Continues after.store) (owner : after.owner = scene.owner) :
    Stays scene frame (.error trap, after) :=
  ⟨store, owner, nofun⟩

theorem of_frame (store : scene.store.Continues after.store) (owner : after.owner = scene.owner)
    (goes : move.frame? = some next) (source : next.source = frame.source) :
    Stays scene frame (.ok move, after) := by
  refine ⟨store, owner, fun moved other => ?_⟩
  cases moved
  cases goes.symm.trans other
  exact source

end Stays

variable (scene : Scene) (frame : Frame)

theorem stays_changing (lasting : Lasting effect) (results : α → Stack UInt64) :
    Stays scene frame (changing scene frame effect results) := by
  have continues := scene.store.continues_access scene.owner lasting
  simp only [changing]
  split
  all_goals
    rename_i same
    rw [same] at continues
  · exact .of_frame continues rfl rfl rfl
  · exact .of_error continues rfl

theorem stays_reading (read : Instance → Except Trap (Stack UInt64)) :
    Stays scene frame (reading scene frame read) := by
  simp only [reading]
  split
  · exact .of_frame (.refl _) rfl rfl rfl
  · exact .of_error (.refl _) rfl

theorem stays_branch (depth target : Nat) :
    Stays scene frame (branch scene frame depth target) := by
  have taken := scene.store.continues_takeInterrupt
  simp only [branch]
  split
  · exact .of_error (.refl _) rfl
  · split
    · split
      · exact .of_error taken rfl
      · exact .of_frame taken rfl rfl rfl
    · exact .of_frame (.refl _) rfl rfl rfl

theorem stays_leave : Stays scene frame (leave scene frame) :=
  ⟨.refl _, rfl, fun moved goes => by cases moved; cases goes⟩

theorem stays_finish : Stays scene frame (finish scene frame) := by
  simp only [finish]
  split
  · exact { stays_leave { scene with controls := scene.controls.drop 1 } frame with }
  · exact .of_frame (.refl _) rfl rfl rfl

theorem stays_call (function : Nat) (tail : Bool) :
    Stays scene frame (call scene frame function tail) := by
  have taken := scene.store.continues_takeInterrupt
  simp only [call, checkInterrupt]
  repeat' split
  all_goals
    first
    | exact .of_error taken rfl
    | exact .of_frame taken rfl rfl rfl

theorem stays_callIndirect (table typeIndex : Nat) (tail : Bool) :
    Stays scene frame (callIndirect scene frame table typeIndex tail) := by
  have taken := scene.store.continues_takeInterrupt
  simp only [callIndirect, checkInterrupt]
  repeat' split
  all_goals
    first
    | exact .of_error (.refl _) rfl
    | exact .of_error taken rfl
    | exact .of_frame taken rfl rfl rfl
    | exact { stays_call { scene with operands := (popWord scene.operands).2 } frame _ tail with }

theorem store_enterBlock {scene : Scene} {frame : Frame}
    (entered : enterBlock scene frame type isLoop = .ok opened) : opened.store = scene.store := by
  unfold enterBlock at entered
  split at entered <;> cases entered
  rfl

theorem stays_act (instr : Instruction) : Stays scene frame (act scene frame instr) := by
  cases same : instr.operator <;> simp only [act, same]
  case enter form type =>
    cases form <;> simp only [enterBlock]
    all_goals
      cases frame.source.blockType type
      · exact .of_error (.refl _) rfl
      · exact .of_frame (.refl _) rfl rfl rfl
  case finish => exact stays_finish scene frame
  case leave => exact stays_leave scene frame
  case branch => exact stays_branch scene frame _ _
  case branchIf =>
    split
    · exact .of_frame (.refl _) rfl rfl rfl
    · exact { stays_branch { scene with operands := (popWord scene.operands).2 } frame _ _ with }
  case branchTable =>
    exact { stays_branch { scene with operands := (popWord scene.operands).2 } frame _ _ with }
  case call | tailCall => exact stays_call scene frame _ _
  case callIndirect | tailCallIndirect => exact stays_callIndirect scene frame _ _ _
  case globalGet | tableGet | tableSize | load | memorySize => exact stays_reading scene frame _
  case globalSet => exact stays_changing scene frame (lasting_setGlobal _ _) _
  case tableSet =>
    exact stays_changing scene frame (gentle_changeTable _ Table.element_of_set).lasting _
  case tableFill =>
    exact stays_changing scene frame (gentle_changeTable _ Table.element_of_fill).lasting _
  case tableGrow => exact stays_changing scene frame (gentle_growTable _ _ _).lasting _
  case tableCopy => exact stays_changing scene frame (gentle_copyTable _ _ _ _ _).lasting _
  case tableInit => exact stays_changing scene frame (gentle_initTable _ _ _ _ _).lasting _
  case elementDrop => exact stays_changing scene frame (gentle_dropElements _).lasting _
  case store | memoryFill | memoryCopy =>
    exact stays_changing scene frame (gentle_changeMemory _).lasting _
  case memoryGrow => exact stays_changing scene frame (gentle_growMemory _).lasting _
  case memoryInit => exact stays_changing scene frame (gentle_initMemory _ _ _ _).lasting _
  case dataDrop => exact stays_changing scene frame (gentle_dropData _).lasting _
  case numeric =>
    split
    · exact .of_frame (.refl _) rfl rfl rfl
    · exact .of_error (.refl _) rfl
  case unreachable => exact .of_error (.refl _) rfl
  all_goals exact .of_frame (.refl _) rfl rfl rfl

theorem stays_step : Stays scene frame (step scene frame) := by
  unfold step
  split
  · exact stays_leave scene frame
  · exact { stays_act scene { frame with position := frame.position + 1 } _ with }

end Interpreted

/-! ## Compiled code -/

namespace Compiled

open Instance Store

/-- The instances stay what they are, and code stays in its instance. -/
structure Stays (before after : Scene) : Prop where
  store : before.store.Continues after.store
  owner : after.owner = before.owner

variable (scene : Scene) (frame : Frame)

theorem stays_same (boxes : Machine.Boxes) (operands : Stack UInt32) :
    Stays scene { scene with boxes, operands } :=
  ⟨.refl _, rfl⟩

theorem stays_changing (lasting : Lasting effect) (results : α → Stack UInt32) :
    Stays scene (changing scene frame effect results).2 := by
  have continues := scene.store.continues_access scene.owner lasting
  simp only [changing]
  split
  all_goals
    rename_i same
    rw [same] at continues
    exact ⟨continues, rfl⟩

theorem stays_reading (read : Instance → Except Trap (Stack UInt32)) :
    Stays scene (reading scene frame read).2 := by
  simp only [reading]
  split <;> exact stays_same _ _ _

theorem stays_callDirect (callee : Machine.Callee) (function : Nat) (signature : UInt16) :
    Stays scene (callDirect scene frame callee function signature).2 := by
  unfold callDirect callDirect.ask
  repeat' split
  all_goals exact stays_same _ _ _

theorem stays_callIndirect (typeIndex table : Nat) (signature : UInt16) :
    Stays scene (callIndirect scene frame typeIndex table signature).2 := by
  unfold callIndirect
  repeat' split
  all_goals exact stays_same _ _ _

theorem stays_act (action : Machine.Action) : Stays scene (act scene frame action).2 := by
  cases action <;> simp only [act]
  case trap code => cases code <;> exact stays_same _ _ _
  case checkInterrupt => exact ⟨scene.store.continues_takeInterrupt, rfl⟩
  case load width slot | store width slot | select width => cases width <;> exact stays_same _ _ _
  case numeric => split <;> exact stays_same _ _ _
  case memLoad | memorySize | tableGet | tableSize => exact stays_reading scene frame _
  case memStore | memoryFill | memoryCopy =>
    exact stays_changing scene frame (gentle_changeMemory _).lasting _
  case memoryGrow => exact stays_changing scene frame (gentle_growMemory _).lasting _
  case memoryInit => exact stays_changing scene frame (gentle_initMemory _ _ _ _).lasting _
  case dataDrop => exact stays_changing scene frame (gentle_dropData _).lasting _
  case globalGet width index => cases width <;> exact stays_reading scene frame _
  case globalSet width index =>
    cases width <;> exact stays_changing scene frame (lasting_setGlobal _ _) _
  case tableSet =>
    exact stays_changing scene frame (gentle_changeTable _ Table.element_of_set).lasting _
  case tableGrow => exact stays_changing scene frame (gentle_growTable _ _ _).lasting _
  case tableFill =>
    exact stays_changing scene frame (gentle_changeTable _ Table.element_of_fill).lasting _
  case tableCopy => exact stays_changing scene frame (gentle_copyTable _ _ _ _ _).lasting _
  case tableInit => exact stays_changing scene frame (gentle_initTable _ _ _ _ _).lasting _
  case elementDrop => exact stays_changing scene frame (gentle_dropElements _).lasting _
  case call => exact stays_callDirect scene frame _ _ _
  case callIndirect => exact stays_callIndirect scene frame _ _ _
  case box =>
    unfold boxTop
    split <;> exact stays_same _ _ _
  case unbox =>
    simp only [unboxTop]
    split <;> exact stays_same _ _ _
  all_goals exact stays_same _ _ _

theorem stays_step : Stays scene (step scene frame).2 := by
  unfold step
  dsimp only
  split
  case h_2 => exact stays_act scene _ _
  all_goals exact stays_same _ _ _

end Compiled

end TwinEngine
