import TwinEngine.Proofs.Engine.Bodies
import TwinEngine.Proofs.Typing.Module

/-!
Contract: actions that take operand slots, consult their instance and give slots.

Owns: what such an action does without regard to a stack, that this is what a unit does, and that it
keeps instances in order.

Does not own: actions that transfer control or touch locals or boxes.
-/

namespace TwinEngine

open Machine hiding Instruction
open Stack

namespace Machine.Action

/-- Actions that take operand slots, consult the instance and give slots. -/
def isStraight : Action → Bool
  | .trap _ | .checkInterrupt | .load .. | .store .. | .leave _ | .call .. | .callIndirect ..
  | .box .. | .unbox .. => false
  | _ => true

def wideSlots (payload : UInt64) : List UInt32 := [lowSlot payload, highSlot payload]

def reading (read : Instance → Except Trap (List UInt32)) : Effect Instance (List UInt32) :=
  fun live => (read live, live)

def answer {α : Type} (effect : Effect Instance α) (results : α → List UInt32) :
    Effect Instance (List UInt32) :=
  fun live => ((effect live).1.map results, (effect live).2)

def payloadAt (taken : List UInt32) (kind : ValueKind) (place : Nat) : UInt64 :=
  if kind.slots = 1 then (taken.getD place 0).toUInt64
  else joinSlots (taken.getD place 0) (taken.getD (place + 1) 0)

def payloadsOf : List ValueKind → List UInt32 → List UInt64
  | [], _ => []
  | kind :: kinds, taken => payloadAt taken kind 0 :: payloadsOf kinds (taken.drop kind.slots)

/-- What a straight action of an instance's code does, given the slots that it takes in order. -/
def perform (owner : Nat) (action : Action) (taken : List UInt32) :
    Effect Instance (List UInt32) :=
  let slot (place : Nat) : UInt32 := taken.getD place 0
  let wide (place : Nat) : UInt64 := joinSlots (slot place) (slot (place + 1))
  let number (place : Nat) : Nat := (slot place).toNat
  match action with
  | .const32 bits => fun live => (.ok [bits], live)
  | .const64 bits => fun live => (.ok (wideSlots bits), live)
  | .dup _ => fun live => (.ok (taken ++ taken), live)
  | .dropKeep dropped _ => fun live => (.ok (taken.drop dropped.toNat), live)
  | .select .one => fun live => (.ok [if slot 2 = 0 then slot 1 else slot 0], live)
  | .select .two => fun live => (.ok (wideSlots (if slot 4 = 0 then wide 2 else wide 0)), live)
  | .numeric operator =>
    let operands := payloadsOf operator.params taken
    reading fun _ =>
      (operator.eval (operands.getD 0 0) (operands.getD 1 0)).map (payloadSlots operator.result)
  | .memLoad kind offset =>
    reading fun live =>
      (live.readMemory (Memory.load · kind (number 0 + offset.toNat))).map
        (payloadSlots kind.result)
  | .memStore kind offset =>
    answer (Instance.changeMemory
      (Memory.store · kind (number 0 + offset.toNat) (payloadAt taken kind.operand 1)))
      fun _ => []
  | .memorySize => reading fun live => live.readMemory fun memory => .ok [UInt32.ofNat memory.pages]
  | .memoryGrow => answer (Instance.growMemory (number 0)) fun size => [size]
  | .memoryFill =>
    answer (Instance.changeMemory (Memory.fill · (number 0) (slot 1).toUInt8 (number 2)))
      fun _ => []
  | .memoryCopy =>
    answer (Instance.changeMemory (Memory.copy · (number 0) (number 1) (number 2))) fun _ => []
  | .memoryInit segment =>
    answer (Instance.initMemory segment.toNat (number 0) (number 1) (number 2)) fun _ => []
  | .dataDrop segment => fun live => (.ok [], live.dropData segment.toNat)
  | .globalGet .one index => reading fun live => .ok [lowSlot (live.getGlobal index.toNat)]
  | .globalGet .two index => reading fun live => .ok (wideSlots (live.getGlobal index.toNat))
  | .globalSet .one index => fun live => (.ok [], live.setGlobal index.toNat (slot 0).toUInt64)
  | .globalSet .two index => fun live => (.ok [], live.setGlobal index.toNat (wide 0))
  | .tableGet table =>
    reading fun live => do return wideSlots (← (← live.table table.toNat).get (number 0))
  | .tableSet table =>
    answer (Instance.changeTable table.toNat (Table.set · (number 0) (wide 1))) fun _ => []
  | .tableSize table => reading fun live => do return [UInt32.ofNat (← live.table table.toNat).size]
  | .tableGrow table =>
    answer (Instance.growTable table.toNat (number 2) (wide 0)) fun size => [size]
  | .tableFill table =>
    answer (Instance.changeTable table.toNat (Table.fill · (number 0) (wide 1) (number 3)))
      fun _ => []
  | .tableCopy targetTable sourceTable =>
    answer (Instance.copyTable targetTable.toNat sourceTable.toNat (number 0) (number 1)
      (number 2)) fun _ => []
  | .tableInit segment table =>
    answer (Instance.initTable segment.toNat table.toNat (number 0) (number 1) (number 2))
      fun _ => []
  | .elementDrop segment => fun live => (.ok [], live.dropElements segment.toNat)
  | .refFunc function =>
    fun live =>
      (.ok (wideSlots (Value.funcRef (some ⟨UInt32.ofNat owner, function⟩)).payload), live)
  | .refIsNull => fun live => (.ok [if wide 0 = nullPayload then 1 else 0], live)
  | _ => fun live => (.ok [], live)

end Machine.Action

/-! ## What the actions give -/

variable {unit : LoadedUnit} {action : Action} {taken : List UInt32} {live : Instance}
  {pops pushes : Nat}

namespace Machine.Action

/-- A straight action gives as many slots as its effect says. -/
theorem length_perform {given : List UInt32} {owner : Nat} (straight : action.isStraight = true)
    (effect : unit.actionEffect action = .ok (pops, pushes)) (length : taken.length = pops)
    (done : (action.perform owner taken live).1 = .ok given) : given.length = pushes := by
  cases action <;> unfold perform at done
  case const32 | const64 | refFunc | refIsNull | dataDrop | elementDrop | pop =>
    cases effect
    cases done
    rfl
  case dup width =>
    cases effect
    cases done
    rw [List.length_append]
    omega
  case dropKeep dropped kept =>
    cases effect
    cases done
    rw [List.length_drop]
    omega
  case select width => cases width <;> cases effect <;> cases done <;> rfl
  case globalGet width index | globalSet width index =>
    cases width <;> cases effect <;> cases done <;> rfl
  case numeric operator | memLoad kind offset =>
    cases effect
    obtain ⟨payload, _, rfl⟩ := map_eq_ok.mp done
    exact length_payloadSlots _ _
  case memorySize =>
    cases effect
    unfold reading Instance.readMemory at done
    dsimp only at done
    split at done <;> cases done
    rfl
  case tableGet table =>
    cases effect
    obtain ⟨entries, _, rest⟩ := bind_eq_ok.mp done
    obtain ⟨payload, _, same⟩ := bind_eq_ok.mp rest
    cases same
    rfl
  case tableSize table =>
    cases effect
    obtain ⟨entries, _, same⟩ := bind_eq_ok.mp done
    cases same
    rfl
  case memStore | memoryGrow | memoryFill | memoryCopy | memoryInit | tableSet | tableGrow |
      tableFill | tableCopy | tableInit =>
    cases effect
    obtain ⟨_, _, rfl⟩ := map_eq_ok.mp done
    rfl
  all_goals cases straight

/-- Straight actions raise none but their own traps. -/
theorem faultless_perform (owner : Nat) (action : Action) (taken : List UInt32)
    (live : Instance) : Faultless (action.perform owner taken live).1 := by
  cases action <;> unfold perform
  case select width | globalGet width _ | globalSet width _ => cases width <;> exact .ok _
  case tableGet table =>
    exact Faultless.bind (live.faultless_table _) fun entries =>
      .bind (entries.faultless_get _) fun _ => .ok _
  case tableSize table => exact Faultless.bind (live.faultless_table _) fun _ => .ok _
  case tableSet | tableFill =>
    exact .map (live.faultless_changeTable _ fun _ => .guarded _ (by decide)) _
  case tableGrow => exact .map (live.faultless_growTable _ _ _) _
  case tableCopy => exact .map (live.faultless_copyTable _ _ _ _ _) _
  case tableInit => exact .map (live.faultless_initTable _ _ _ _ _) _
  case memLoad => exact Faultless.map (live.faultless_readMemory fun _ => .guarded _ (by decide)) _
  case memStore | memoryFill | memoryCopy =>
    exact .map (live.faultless_changeMemory fun _ => .guarded _ (by decide)) _
  case memorySize => exact live.faultless_readMemory fun _ => .ok _
  case memoryGrow => exact .map (live.faultless_growMemory _) _
  case memoryInit => exact .map (live.faultless_initMemory _ _ _ _) _
  case numeric operator => exact Faultless.map (Numeric.faultless_eval _ _ _) _
  all_goals exact .ok _

end Machine.Action

/-! ## Instances -/

namespace Machine.Action

def FitsGlobals (source : Module) (action : Action) : Prop :=
  ∀ {width : Width} {index : UInt32}, action = .globalSet width index →
    ∃ global, source.globals[index.toNat]? = some global ∧ global.kind.slots = width.slots

open Instance in
/-- A straight action keeps its instance in order. -/
theorem sound_perform (owner : Nat) (taken : List UInt32) (sound : live.Sound)
    (fits : action.FitsGlobals live.source) : (action.perform owner taken live).2.Sound := by
  cases action <;> unfold perform
  case globalSet width index =>
    obtain ⟨global, declared, wide⟩ := fits rfl
    cases width with
    | one =>
      exact sound.setGlobal declared (ValueKind.admits_of_slots fun _ => toNat_toUInt64_lt _)
    | two =>
      refine sound.setGlobal declared (ValueKind.admits_of_slots fun narrow => ?_)
      cases wide.symm.trans narrow
  case globalGet width _ | select width => cases width <;> exact sound
  case memStore | memoryFill | memoryCopy =>
    exact sound.settles (gentle_changeMemory _ live)
  case memoryGrow =>
    exact sound.settles (gentle_growMemory _ live)
  case memoryInit =>
    exact sound.settles (gentle_initMemory _ _ _ _ live)
  case dataDrop => exact sound.settles (gentle_dropData _ live)
  case elementDrop => exact sound.settles (gentle_dropElements _ live)
  case tableSet =>
    exact sound.settles (gentle_changeTable _ Table.element_of_set live)
  case tableFill =>
    exact sound.settles (gentle_changeTable _ Table.element_of_fill live)
  case tableGrow =>
    exact sound.settles (gentle_growTable _ _ _ live)
  case tableCopy =>
    exact sound.settles (gentle_copyTable _ _ _ _ _ live)
  case tableInit =>
    exact sound.settles (gentle_initTable _ _ _ _ _ live)
  all_goals exact sound

end Machine.Action

namespace Compiled

open Machine.Action (wideSlots)

/-- How a frame goes on after a straight action, with what it gives above other operands. -/
def conclude (scene : Scene) (frame : Frame) (rest : Stack UInt32)
    (outcome : Except Trap (List UInt32) × Instance) : Except Trap Move × Scene :=
  let store := scene.store.put scene.owner outcome.2
  match outcome.1 with
  | .ok given => (.ok (.run frame), { scene with operands := rest.pushAll given, store })
  | .error trap => (.error trap, { scene with store })

theorem pushWide_eq (payload : UInt64) (operands : Stack UInt32) :
    pushWide payload operands = operands.pushAll (wideSlots payload) := rfl

theorem pushKind_eq (kind : ValueKind) (payload : UInt64) (operands : Stack UInt32) :
    pushKind kind payload operands = operands.pushAll (payloadSlots kind payload) := by
  unfold pushKind payloadSlots
  split <;> rfl

theorem popWide_push (operands : Stack UInt32) (low high : UInt32) :
    popWide ((operands.push low).push high) = (joinSlots low high, operands) := by
  simp only [popWide, pop, pop_push]

theorem pop_push (operands : Stack UInt32) (slot : UInt32) :
    pop (operands.push slot) = (slot, operands) := by
  simp only [pop, Stack.pop_push]

theorem drop_pushAll (rest : Stack UInt32) (taken : List UInt32) :
    (rest.pushAll taken).drop taken.length = rest := by
  rw [← List.length_reverse]
  exact drop_of_items (items_pushAll rest taken)

theorem last_pushAll (rest : Stack UInt32) (taken : List UInt32) :
    (rest.pushAll taken).last taken.length = taken := by
  rw [← List.length_reverse, last_of_items (items_pushAll rest taken), List.reverse_reverse]

theorem pushAll_append (rest : Stack UInt32) (first second : List UInt32) :
    (rest.pushAll first).pushAll second = rest.pushAll (first ++ second) :=
  ext_items (by simp)

theorem map_map {α β γ : Type} (outcome : Except Trap α) (first : α → β) (second : β → γ) :
    (outcome.map first).map second = outcome.map fun result => second (first result) := by
  cases outcome <;> rfl

theorem bind_pure_eq_map {α β γ : Type} (outcome : Except Trap α) (first : α → β) (second : β → γ) :
    (outcome >>= fun result => pure (second (first result))) = (outcome.map first).map second := by
  cases outcome <;> rfl

theorem payloadAt_take (taken : List UInt32) (kind : ValueKind) :
    Action.payloadAt (taken.take kind.slots) kind 0 = Action.payloadAt taken kind 0 := by
  unfold Action.payloadAt
  split
  · rename_i narrow
    cases taken <;> simp [narrow]
  · rename_i wide
    have two : kind.slots = 2 := by
      cases kind <;> first | rfl | exact absurd rfl wide
    rw [two]
    cases taken with
    | nil => rfl
    | cons _ others => cases others <;> rfl

theorem popKind_pushAll (length : taken.length = kind.slots) :
    popKind kind (rest.pushAll taken) = (Action.payloadAt taken kind 0, rest) := by
  unfold popKind Action.payloadAt
  split
  · rename_i narrow
    obtain ⟨_, rfl⟩ := List.length_eq_one_iff.mp (length.trans narrow)
    rfl
  · rename_i wide
    have two : kind.slots = 2 := by
      cases kind <;> first | rfl | exact absurd rfl wide
    obtain ⟨_, _, rfl⟩ := List.length_eq_two.mp (length.trans two)
    rfl

section Straight

variable {scene : Scene} {frame : Frame} {live : Instance} {rest : Stack UInt32}
  (found : scene.store.instances[scene.owner]? = some live)

include found

theorem conclude_ok (given : List UInt32) : conclude scene frame rest (.ok given, live) =
      (.ok (.run frame), { scene with operands := rest.pushAll given }) := by
  simp only [conclude, Store.put_self found]

theorem reading_eq {read : Instance → Except Trap (Stack UInt32)}
    (same : read live = (consult live).map rest.pushAll) :
    reading scene frame read = conclude scene frame rest (Action.reading consult live) := by
  simp only [reading, Store.look, found, same, conclude, Action.reading, Store.put_self found]
  cases consult live <;> rfl

theorem changing_eq {α : Type} (effect : Effect Instance α) {results : α → Stack UInt32}
    {answers : α → List UInt32} (same : ∀ answer, results answer = rest.pushAll (answers answer)) :
    changing scene frame effect results =
      conclude scene frame rest (Action.answer effect answers live) := by
  simp only [changing, Store.access_eq found, conclude, Action.answer]
  cases (effect live).1 with
  | ok answer => simp [Except.map, same]
  | error => rfl

theorem changing_unit (effect : Effect Instance Unit) :
    changing scene frame effect (fun _ => rest) =
      conclude scene frame rest (Action.answer effect (fun _ => []) live) :=
  changing_eq found effect fun _ => rfl

theorem changing_word (effect : Effect Instance UInt32) : changing scene frame effect rest.push =
      conclude scene frame rest (Action.answer effect (fun answer => [answer]) live) :=
  changing_eq found effect fun _ => rfl

theorem act_numeric (evaluated : evaluate operator scene.operands = result.map rest.pushAll) :
    act scene frame (.numeric operator) =
      conclude scene frame rest (Action.reading (fun _ => result) live) := by
  simp only [act, evaluated]
  cases result with
  | ok given => exact (conclude_ok found given).symm
  | error => simp only [Except.map, conclude, Action.reading, Store.put_self found]

theorem act_straight (straight : action.isStraight = true)
    (effect : unit.actionEffect action = .ok (pops, pushes)) (length : taken.length = pops)
    (standing : scene.operands = rest.pushAll taken) : act scene frame action =
      conclude scene frame rest (action.perform scene.owner taken live) := by
  cases action <;> unfold Action.perform
  case' select width | globalGet width _ | globalSet width _ => cases width
  all_goals first | cases straight; done | cases effect
  case pop width =>
    simp only [act, running, standing, ← length]
    rw [drop_pushAll]
    exact (conclude_ok found []).symm
  case dup width =>
    simp only [act, running, standing, ← length]
    rw [last_pushAll, pushAll_append]
    exact (conclude_ok found _).symm
  case dropKeep dropped kept =>
    have several : kept.toNat + dropped.toNat = taken.length := by omega
    have kept : kept.toNat = (taken.drop dropped.toNat).length := by
      rw [List.length_drop]
      omega
    have split : rest.pushAll taken =
        (rest.pushAll (taken.take dropped.toNat)).pushAll (taken.drop dropped.toNat) := by
      rw [pushAll_append, List.take_append_drop]
    simp only [act, running, standing]
    rw [several, drop_pushAll, split, kept, last_pushAll]
    exact (conclude_ok found _).symm
  case numeric operator =>
    refine act_numeric found ?_
    rcases operator.params_one_or_two with ⟨kind, kinds⟩ | ⟨left, right, kinds⟩
    · rw [kinds] at length
      simp only [evaluate, kinds, standing, popKind_pushAll length, pushKind_eq]
      exact bind_pure_eq_map _ _ _
    · rw [kinds] at length
      have several : taken.length = left.slots + right.slots := by
        simpa [ValueKind.slotCount] using length
      have front : (taken.take left.slots).length = left.slots := by
        rw [List.length_take]
        omega
      have back : (taken.drop left.slots).length = right.slots := by
        rw [List.length_drop]
        omega
      have split : scene.operands =
          (rest.pushAll (taken.take left.slots)).pushAll (taken.drop left.slots) := by
        rw [pushAll_append, List.take_append_drop, standing]
      simp only [evaluate, kinds, split, popKind_pushAll front, popKind_pushAll back, pushKind_eq,
        payloadAt_take, Action.payloadsOf]
      exact bind_pure_eq_map _ _ _
  case memStore kind offset =>
    obtain ⟨_, payload, rfl⟩ :=
      List.exists_cons_of_length_eq_add_one (length.trans (Nat.add_comm 1 _))
    have length : payload.length = kind.operand.slots :=
      Nat.succ.inj (length.trans (Nat.add_comm 1 _))
    simp only [act, standing, pushAll_cons, popKind_pushAll length, pop_push]
    exact changing_unit found _
  -- Wide operands are two slots each, so that a selection may take five.
  case' tableFill =>
    obtain ⟨_, others, rfl⟩ := List.exists_cons_of_length_eq_add_one length
    replace length := Nat.succ.inj length
  case' select.two =>
    obtain ⟨_, others, rfl⟩ := List.exists_cons_of_length_eq_add_one length
    obtain ⟨_, others, rfl⟩ := List.exists_cons_of_length_eq_add_one (Nat.succ.inj length)
    replace length := Nat.succ.inj (Nat.succ.inj length)
  all_goals
    first
    | obtain rfl := List.eq_nil_of_length_eq_zero length
    | obtain ⟨first, rfl⟩ := List.length_eq_one_iff.mp length
    | obtain ⟨first, second, rfl⟩ := List.length_eq_two.mp length
    | obtain ⟨first, second, _, rfl⟩ := List.length_eq_three.mp length
    simp only [act, running, popThree, standing, pushAll_cons, pushAll_nil, pop_push, popWide_push,
      pushWide_eq]
  case memLoad kind offset =>
    refine reading_eq found ?_
    simp only [pushKind_eq]
    exact (map_map _ _ _).symm
  case memorySize =>
    refine reading_eq found ?_
    unfold Instance.readMemory
    cases live.memory <;> rfl
  case tableGet table =>
    refine reading_eq found ?_
    cases live.table table.toNat with
    | error => rfl
    | ok entries =>
      show (entries.get first.toNat >>= _) = Except.map _ (entries.get first.toNat >>= _)
      cases entries.get first.toNat <;> rfl
  case tableSize table =>
    refine reading_eq found ?_
    cases live.table table.toNat <;> rfl
  case memoryGrow | tableGrow => exact changing_word found _
  all_goals
    first
    | exact (conclude_ok found [_]).symm
    | exact (conclude_ok found _).symm
    | exact reading_eq found rfl
    | exact changing_unit found _

end Straight

end Compiled

end TwinEngine
