import Mathlib.Data.List.Forall2
import TwinEngine.Proofs.Engine.Continuity
import TwinEngine.Proofs.Machine.SlotCoding
import TwinEngine.Proofs.Numeric.Ranges
import TwinEngine.Proofs.Storage.TypedAccess
import TwinEngine.Proofs.Validation

/-!
Contract: operators that take operands, consult their instance and give results.

Owns: which payloads the values of a kind have, what it means that the state of an instance is in
order, what such an operator does without regard to a stack, that this is what the interpreter does,
and that it keeps payloads and instances in order.

Does not own: operators that transfer control or touch locals.
-/

namespace TwinEngine

open Stack

/-! ## Payloads -/

/-- The payloads that values of a kind have. Numbers of 32 bits have no bits above these. -/
def ValueKind.Admits : ValueKind → UInt64 → Prop
  | .i32, payload | .f32, payload => payload.toNat < 2 ^ 32
  | .i64, _ | .f64, _ | .funcRef, _ | .externRef, _ => True

abbrev Admitted : List ValueKind → List UInt64 → Prop :=
  List.Forall₂ ValueKind.Admits

section Admitted

variable {first second third : ValueKind} {payloads : List UInt64}

theorem Admitted.one (admitted : Admitted [first] payloads) :
    ∃ payload, payloads = [payload] ∧ first.Admits payload := by
  obtain ⟨payload, _, admits, empty, rfl⟩ := List.forall₂_cons_left_iff.mp admitted
  cases empty
  exact ⟨payload, rfl, admits⟩

theorem Admitted.two (admitted : Admitted [first, second] payloads) :
    ∃ left right, payloads = [left, right] ∧ first.Admits left ∧
      second.Admits right := by
  obtain ⟨left, _, admits, rest, rfl⟩ := List.forall₂_cons_left_iff.mp admitted
  obtain ⟨right, rfl, also⟩ := Admitted.one rest
  exact ⟨left, right, rfl, admits, also⟩

theorem Admitted.three (admitted : Admitted [first, second, third] payloads) :
    ∃ left middle right, payloads = [left, middle, right] ∧ first.Admits left ∧
      second.Admits middle ∧ third.Admits right := by
  obtain ⟨left, _, admits, rest, rfl⟩ := List.forall₂_cons_left_iff.mp admitted
  obtain ⟨middle, right, rfl, also⟩ := Admitted.two rest
  exact ⟨left, middle, right, rfl, admits, also⟩

end Admitted

theorem toNat_toUInt64_lt (word : UInt32) : word.toUInt64.toNat < 2 ^ 32 := by
  exact word.toNat_lt

theorem Value.admits (value : Value) : value.kind.Admits value.payload := by
  cases value with
  | i32 bits | f32 bits => exact toNat_toUInt64_lt bits
  | _ => trivial

variable {kind : ValueKind} {id index : Nat} {results locals params : List ValueKind} {α : Type}
  {operator : Numeric.Operator} {operands : List UInt64} {table : Table} {payload : UInt64}

theorem ValueKind.admits_of_isRef (reference : kind.isRef = true) (payload : UInt64) :
    kind.Admits payload := by
  cases kind with
  | funcRef | externRef => trivial
  | _ => cases reference

theorem ValueKind.admits_of_slots (narrow : kind.slots = 1 → payload.toNat < 2 ^ 32) :
    kind.Admits payload := by
  cases kind with
  | i32 | f32 => exact narrow rfl
  | _ => trivial

/-! ## Instances -/

/-- The state of an instance is what its module declares. -/
structure Instance.Sound (live : Instance) : Prop where
  globals : live.globals.size = live.source.globals.size
  global : ∀ {index : Nat} {global : Global} {payload : UInt64},
    live.source.globals[index]? = some global → live.globals[index]? = some payload →
      global.kind.Admits payload
  tables : live.tables.map Table.element = live.source.tables.map TableType.element
  references : ∀ {index : Nat} {type : TableType}, live.source.tables[index]? = some type →
    type.element.isRef
  memory : live.memory.isSome = live.source.memory.isSome
  data : live.data.size = live.source.data.size
  elements : live.elements.size = live.source.elements.size

namespace Instance

variable {live : Instance}

def Preserves {α : Type} (effect : Effect Instance α) (live : Instance) : Prop :=
  live.Sound → (effect live).2.Sound

section

variable (sound : live.Sound)

include sound

/-- All that may go wrong in the state of an instance are its globals. -/
theorem Sound.settles (settles : live.Settles later) : later.Sound where
  globals := by rw [settles.globals, settles.source, sound.globals]
  global := by
    rw [settles.source, settles.values]
    exact sound.global
  tables := by rw [settles.tables, settles.source, sound.tables]
  references := by
    rw [settles.source]
    exact sound.references
  memory := by rw [settles.memory, settles.source, sound.memory]
  data := by rw [settles.data, settles.source, sound.data]
  elements := by rw [settles.elements, settles.source, sound.elements]

theorem Sound.setGlobal {global : Global} (declared : live.source.globals[index]? = some global)
    (admits : global.kind.Admits payload) : (live.setGlobal index payload).Sound := by
  refine { sound with globals := by simp [Instance.setGlobal, sound.globals], global := ?_ }
  intro _ declaration _ found here
  simp only [Instance.setGlobal, Array.getElem?_setIfInBounds] at here
  split at here
  · rename_i same
    subst same
    split at here <;> cases here
    have found : live.source.globals[index]? = some declaration := found
    cases declared.symm.trans found
    exact admits
  · exact sound.global found here

end

theorem Gentle.preserves (gentle : Gentle effect) : Preserves effect live :=
  fun sound => sound.settles (gentle live)

theorem table_eq_ok : live.table index = .ok table ↔ live.tables[index]? = some table := by
  unfold Instance.table
  cases live.tables[index]? <;> simp

end Instance

namespace Memory

theorem admits_load {memory : Memory} {kind : LoadKind}
    (loaded : memory.load kind address = .ok payload) : kind.result.Admits payload := by
  rw [load_eq] at loaded
  split at loaded <;> cases loaded
  cases kind with
  | i32 | f32 | i32From8 | i32From16 => exact Numeric.toNat_payloadOf_lt _
  | i64 | f64 | i64From8 | i64From16 | i64From32 => trivial

end Memory

/-! ## Operators -/

def Effect.answer {α : Type} (effect : Effect Instance α) (results : α → List UInt64) :
    Effect Instance (List UInt64) :=
  fun live => ((effect live).1.map results, (effect live).2)

def Instance.reading (read : Instance → Except Trap UInt64) : Effect Instance (List UInt64) :=
  fun live => ((read live).map fun payload => [payload], live)

namespace Operator

/-- Operators that take operands, consult the instance and give results. -/
def isPlain : Operator → Bool
  | .unreachable | .enter .. | .otherwise | .finish | .branch _ | .branchIf _ | .branchTable ..
  | .leave | .call _ | .callIndirect .. | .tailCall _ | .tailCallIndirect .. | .localGet _
  | .localSet _ | .localTee _ => false
  | _ => true

/-- What a plain operator of an instance's code does, given its operands in order. -/
def perform (owner : Nat) (operator : Operator) (operands : List UInt64) :
    Effect Instance (List UInt64) :=
  let payload (place : Nat) : UInt64 := operands.getD place 0
  let word (place : Nat) : UInt32 := (payload place).toUInt32
  let number (place : Nat) : Nat := (word place).toNat
  match operator with
  | .select | .selectKind _ => fun live => (.ok [if word 2 = 0 then payload 1 else payload 0], live)
  | .globalGet index => Instance.reading fun live => .ok (live.getGlobal index)
  | .globalSet index => fun live => (.ok [], live.setGlobal index (payload 0))
  | .tableGet table => Instance.reading fun live => do (← live.table table).get (number 0)
  | .tableSet table =>
    (Instance.changeTable table (Table.set · (number 0) (payload 1))).answer fun _ => []
  | .tableSize table =>
    Instance.reading fun live => do return (UInt32.ofNat (← live.table table).size).toUInt64
  | .tableGrow table =>
    (Instance.growTable table (number 1) (payload 0)).answer fun answer => [answer.toUInt64]
  | .tableFill table =>
    (Instance.changeTable table (Table.fill · (number 0) (payload 1) (number 2))).answer
      fun _ => []
  | .tableCopy targetTable sourceTable =>
    (Instance.copyTable targetTable sourceTable (number 0) (number 1) (number 2)).answer
      fun _ => []
  | .tableInit table segment =>
    (Instance.initTable segment table (number 0) (number 1) (number 2)).answer fun _ => []
  | .elementDrop segment => fun live => (.ok [], live.dropElements segment)
  | .load kind offset =>
    Instance.reading fun live => live.readMemory (Memory.load · kind (number 0 + offset))
  | .store kind offset =>
    (Instance.changeMemory (Memory.store · kind (number 0 + offset) (payload 1))).answer
      fun _ => []
  | .memorySize =>
    Instance.reading fun live =>
      live.readMemory fun memory => .ok (UInt32.ofNat memory.pages).toUInt64
  | .memoryGrow => (Instance.growMemory (number 0)).answer fun answer => [answer.toUInt64]
  | .memoryFill =>
    (Instance.changeMemory (Memory.fill · (number 0) (word 1).toUInt8 (number 2))).answer
      fun _ => []
  | .memoryCopy =>
    (Instance.changeMemory (Memory.copy · (number 0) (number 1) (number 2))).answer fun _ => []
  | .memoryInit segment =>
    (Instance.initMemory segment (number 0) (number 1) (number 2)).answer fun _ => []
  | .dataDrop segment => fun live => (.ok [], live.dropData segment)
  | .constant value => fun live => (.ok [value.value.payload], live)
  | .refNull _ => fun live => (.ok [nullPayload], live)
  | .refIsNull => fun live => (.ok [if payload 0 = nullPayload then 1 else 0], live)
  | .refFunc function =>
    fun live =>
      (.ok [(Value.funcRef (some ⟨UInt32.ofNat owner, UInt32.ofNat function⟩)).payload], live)
  | .numeric operator => Instance.reading fun _ => operator.eval (payload 0) (payload 1)
  | _ => fun live => (.ok [], live)

section Sound

variable {live : Instance}

/-- A plain operator keeps its instance in order and gives results of the right kinds. -/
structure Performs (results : List ValueKind)
    (outcome : Except Trap (List UInt64) × Instance) : Prop where
  live : outcome.2.Sound
  results : ∀ {payloads : List UInt64}, outcome.1 = .ok payloads → Admitted results payloads

theorem Performs.of_ok (sound : live.Sound) (admitted : Admitted results payloads) :
    Performs results (.ok payloads, live) :=
  ⟨sound, fun same => by cases same; exact admitted⟩

theorem Performs.of_reading {read : Instance → Except Trap UInt64} (sound : live.Sound)
    (admits : ∀ payload, read live = .ok payload → kind.Admits payload) :
    Performs [kind] (Instance.reading read live) := by
  refine ⟨sound, fun {_} same => ?_⟩
  obtain ⟨payload, found, rfl⟩ := map_eq_ok.mp same
  exact .cons (admits payload found) .nil

theorem Performs.of_answer {results : α → List UInt64} (sound : live.Sound)
    (preserves : Instance.Preserves effect live)
    (admitted : ∀ answer, Admitted kinds (results answer)) :
    Performs kinds (effect.answer results live) := by
  refine ⟨preserves sound, fun {_} same => ?_⟩
  obtain ⟨answer, _, rfl⟩ := map_eq_ok.mp same
  exact admitted answer

theorem admits_eval {left right result : UInt64}
    (operand : ∀ kind ∈ operator.params.head?, kind.Admits left)
    (evaluated : operator.eval left right = .ok result) : operator.result.Admits result := by
  refine ValueKind.admits_of_slots fun narrow =>
    Numeric.Operator.toNat_eval_lt narrow (fun kind member slots => ?_) evaluated
  have admits := operand kind member
  cases kind with
  | i32 | f32 => exact admits
  | _ => cases slots

theorem performs_perform {operator : Operator} (owner : Nat) (sound : live.Sound)
    (plain : operator.isPlain = true)
    (effect : Validation.Effect live.source locals params results operator)
    (admitted : Admitted params operands) :
    Performs results (operator.perform owner operands live) := by
  have word (bits : UInt32) : Admitted [.i32] [bits.toUInt64] :=
    .cons (toNat_toUInt64_lt bits) .nil
  cases operator with
    first
    | cases plain; done
    | obtain ⟨rfl, rfl⟩ := effect
    | obtain ⟨known, rfl, rfl⟩ := effect
    | obtain ⟨_, declared, rfl, rfl⟩ := effect
    | obtain ⟨_, declared, _, rfl, rfl⟩ := effect
    | obtain ⟨_, _, left, right, same, rfl, rfl⟩ := effect
  | nop | drop => exact .of_ok sound .nil
  | select | selectKind =>
    obtain ⟨first, _, _, rfl, firstAdmits, secondAdmits, _⟩ := admitted.three
    refine .of_ok sound (.cons ?_ .nil)
    split
    · exact secondAdmits
    · exact firstAdmits
  | globalGet index =>
    unfold perform
    refine .of_reading sound fun payload found => ?_
    have inside : index < live.globals.size := by
      rw [sound.globals]
      exact lt_size declared
    cases found
    refine sound.global declared ?_
    rw [Instance.getGlobal, Array.getD_eq_getD_getElem?, Array.getElem?_eq_getElem inside]
    rfl
  | globalSet index =>
    obtain ⟨payload, rfl, admits⟩ := admitted.one
    exact .of_ok (sound.setGlobal declared admits) .nil
  | tableGet table =>
    unfold perform
    exact .of_reading sound fun payload _ =>
      ValueKind.admits_of_isRef (sound.references declared) payload
  | tableSet table =>
    obtain ⟨_, _, rfl, _⟩ := admitted.two
    exact .of_answer sound (Instance.gentle_changeTable _ Table.element_of_set).preserves fun _ =>
      .nil
  | tableSize table =>
    unfold perform
    refine .of_reading sound fun payload found => ?_
    obtain ⟨entries, _, same⟩ := bind_eq_ok.mp found
    cases same
    exact toNat_toUInt64_lt _
  | tableGrow table =>
    obtain ⟨_, _, rfl, _⟩ := admitted.two
    exact .of_answer sound (Instance.gentle_growTable _ _ _).preserves fun _ => word _
  | tableFill table =>
    obtain ⟨_, _, _, rfl, _⟩ := admitted.three
    exact .of_answer sound (Instance.gentle_changeTable _ Table.element_of_fill).preserves fun _ =>
      .nil
  | tableCopy =>
    exact .of_answer sound (Instance.gentle_copyTable _ _ _ _ _).preserves fun _ => .nil
  | tableInit table segment =>
    exact .of_answer sound (Instance.gentle_initTable _ _ _ _ _).preserves fun _ => .nil
  | elementDrop segment =>
    exact .of_ok (sound.settles (Instance.gentle_dropElements segment live)) .nil
  | load kind offset =>
    refine .of_reading sound fun payload found => ?_
    unfold Instance.readMemory at found
    split at found
    · cases found
    · exact Memory.admits_load found
  | store kind offset | memoryFill | memoryCopy =>
    exact .of_answer sound (Instance.gentle_changeMemory _).preserves fun _ => .nil
  | memorySize =>
    refine .of_reading sound fun payload found => ?_
    unfold Instance.readMemory at found
    split at found <;> cases found
    exact toNat_toUInt64_lt _
  | memoryGrow =>
    exact .of_answer sound (Instance.gentle_growMemory _).preserves fun _ => word _
  | memoryInit segment =>
    exact .of_answer sound (Instance.gentle_initMemory _ _ _ _).preserves fun _ => .nil
  | dataDrop segment =>
    exact .of_ok (sound.settles (Instance.gentle_dropData segment live)) .nil
  | constant value =>
    refine .of_ok sound (.cons ?_ .nil)
    have admits := value.value.admits
    cases value <;> exact admits
  | refNull kind => exact .of_ok sound (.cons (ValueKind.admits_of_isRef known _) .nil)
  | refIsNull =>
    refine .of_ok sound (.cons ?_ .nil)
    split
    · exact (by decide : (1 : UInt64).toNat < 2 ^ 32)
    · exact (by decide : (0 : UInt64).toNat < 2 ^ 32)
  | refFunc => exact .of_ok sound (.cons trivial .nil)
  | numeric operator =>
    unfold perform
    refine .of_reading sound fun payload found => admits_eval (fun kind member => ?_) found
    cases kinds : operator.params with
    | nil =>
      rw [kinds] at member
      cases member
    | cons first =>
      rw [kinds] at member admitted
      cases member
      obtain ⟨left, _, admits, _, rfl⟩ := List.forall₂_cons_left_iff.mp admitted
      exact admits

end Sound

end Operator

theorem Numeric.Operator.params_one_or_two (operator : Numeric.Operator) :
    (∃ kind, operator.params = [kind]) ∨ ∃ left right, operator.params = [left, right] := by
  cases operator <;> first | exact .inl ⟨_, rfl⟩ | exact .inr ⟨_, _, rfl⟩

/-! ## Interpretation -/

namespace Stack

variable {α : Type}

variable (stack : Stack α)

include stack

@[simp]
theorem pop_push (item standIn : α) : (stack.push item).pop standIn = (item, stack) := by
  cases stack
  rfl

@[simp]
theorem drop_one_push (item : α) : (stack.push item).drop 1 = stack := ext_items rfl

@[simp]
theorem pushAll_nil : stack.pushAll [] = stack := rfl

@[simp]
theorem pushAll_cons (item : α) (items : List α) :
    stack.pushAll (item :: items) = (stack.push item).pushAll items := rfl

end Stack

def Store.put (store : Store) (id : Nat) (live : Instance) : Store :=
  { store with instances := store.instances.setIfInBounds id live }

theorem setIfInBounds_self {items : Array α} (found : items[index]? = some item) :
    items.setIfInBounds index item = items := by
  apply Array.ext_getElem?
  intro _
  rw [Array.getElem?_setIfInBounds]
  split
  · rename_i equal
    subst equal
    rw [if_pos (lt_size found), found]
  · rfl

theorem Store.put_self {store : Store} (found : store.instances[id]? = some live) :
    store.put id live = store := by
  rw [Store.put, setIfInBounds_self found]

theorem Store.access_eq {store : Store} (found : store.instances[id]? = some live)
    (effect : Effect Instance α) :
    store.access id effect = ((effect live).1, store.put id (effect live).2) := by
  have inside := lt_size found
  have here : store.instances.getD id default = live := by
    rw [Array.getD_eq_getD_getElem?, found]
    rfl
  simp only [access, inside, if_true, detach, here, put, Array.setIfInBounds_setIfInBounds]

namespace Interpreted

/-- How a frame goes on after a plain operator, with its results above other operands. -/
def conclude (scene : Scene) (frame : Frame) (rest : Stack UInt64)
    (outcome : Except Trap (List UInt64) × Instance) : Except Trap Move × Scene :=
  let store := scene.store.put scene.owner outcome.2
  match outcome.1 with
  | .ok results => (.ok (.run frame), { scene with operands := rest.pushAll results, store })
  | .error trap => (.error trap, { scene with store })

section Plain

variable {scene : Scene} {frame : Frame} {live : Instance} {rest : Stack UInt64}
  (found : scene.store.instances[scene.owner]? = some live)

include found

theorem conclude_ok (results : List UInt64) : conclude scene frame rest (.ok results, live) =
      (.ok (.run frame), { scene with operands := rest.pushAll results }) := by
  simp only [conclude, Store.put_self found]

theorem reading_eq {read : Instance → Except Trap (Stack UInt64)}
    (same : read live = (consult live).map rest.push) :
    reading scene frame read = conclude scene frame rest (Instance.reading consult live) := by
  simp only [reading, Store.look, found, same, conclude, Instance.reading, Store.put_self found]
  cases consult live <;> rfl

theorem changing_eq (effect : Effect Instance α) {results : α → Stack UInt64}
    (same : ∀ answer, results answer = rest.pushAll (answers answer)) :
    changing scene frame effect results =
      conclude scene frame rest (effect.answer answers live) := by
  simp only [changing, Store.access_eq found, conclude, Effect.answer]
  cases (effect live).1 with
  | ok answer => simp [Except.map, same]
  | error => rfl

theorem changing_unit (effect : Effect Instance Unit) :
    changing scene frame effect (fun _ => rest) =
      conclude scene frame rest (effect.answer (fun _ => []) live) :=
  changing_eq found effect fun _ => rfl

theorem changing_word (effect : Effect Instance UInt32) :
    changing scene frame effect (rest.push ·.toUInt64) =
      conclude scene frame rest (effect.answer (fun answer => [answer.toUInt64]) live) :=
  changing_eq found effect fun _ => rfl

theorem act_numeric (same : instr.operator = .numeric operator)
    (evaluated : evaluate operator scene.operands = result.map rest.push) : act scene frame instr =
      conclude scene frame rest (Instance.reading (fun _ => result) live) := by
  simp only [act, same, evaluated]
  cases result with
  | ok payload => exact (conclude_ok found [payload]).symm
  | error => simp only [Except.map, conclude, Instance.reading, Store.put_self found]

theorem act_plain (plain : instr.operator.isPlain = true)
    (effect : Validation.Effect live.source locals params results instr.operator)
    (length : operands.length = params.length) (standing : scene.operands = rest.pushAll operands) :
    act scene frame instr =
      conclude scene frame rest (instr.operator.perform scene.owner operands live) := by
  obtain ⟨operator, _⟩ := instr
  cases operator <;> unfold Operator.perform
  case numeric operator =>
    obtain ⟨rfl, rfl⟩ := effect
    refine act_numeric found rfl ?_
    rcases operator.params_one_or_two with ⟨_, kinds⟩ | ⟨_, _, kinds⟩
    · rw [kinds] at length
      obtain ⟨payload, rfl⟩ := List.length_eq_one_iff.mp length
      simp only [evaluate, kinds, pop, standing, pushAll_cons, pushAll_nil, pop_push]
      rfl
    · rw [kinds] at length
      obtain ⟨first, second, rfl⟩ := List.length_eq_two.mp length
      simp only [evaluate, kinds, pop, standing, pushAll_cons, pushAll_nil, pop_push]
      rfl
  -- The parameters of an operator say how many operands there are.
  all_goals
    first
    | cases plain; done
    | obtain ⟨rfl, rfl⟩ := effect
    | obtain ⟨_, rfl, rfl⟩ := effect
    | obtain ⟨_, _, rfl, rfl⟩ := effect
    | obtain ⟨_, _, _, rfl, rfl⟩ := effect
    | obtain ⟨_, _, _, _, _, rfl, rfl⟩ := effect
  all_goals
    first
    | obtain rfl := List.eq_nil_of_length_eq_zero length
    | obtain ⟨payload, rfl⟩ := List.length_eq_one_iff.mp length
    | obtain ⟨first, second, rfl⟩ := List.length_eq_two.mp length
    | obtain ⟨first, second, _, rfl⟩ := List.length_eq_three.mp length
    simp only [act, running, popThree, popWord, pop, standing, pushAll_cons, pushAll_nil, pop_push,
      drop_one_push]
  case nop => rw [conclude_ok found, ← standing]
  case drop => exact (conclude_ok found []).symm
  case globalGet | load => exact reading_eq found rfl
  case tableGet table type declared | tableSize table type declared =>
    refine reading_eq found ?_
    cases live.table table <;> rfl
  case memorySize =>
    refine reading_eq found ?_
    unfold Instance.readMemory
    cases live.memory <;> rfl
  case tableGrow | memoryGrow => exact changing_word found _
  case select | selectKind | constant | refNull | refFunc | refIsNull =>
    exact (conclude_ok found [_]).symm
  all_goals exact changing_unit found _

end Plain

end Interpreted

end TwinEngine
