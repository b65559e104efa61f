import TwinEngine.Proofs.Engine.Units
import TwinEngine.Proofs.Lowering.Polling
import TwinEngine.Proofs.Machine.Slab
import TwinEngine.World

/-!
Contract: a unit starts with its arguments and the defaults of its declared locals in its frame,
whichever way the arguments come.

Owns: the places of locals in a frame, that lowered code begins with the prologue, and the run of
the prologue.
-/

namespace TwinEngine

open Machine hiding Instruction
open ValueKind
open Compiled
open List (length_append append_assoc replicate)

/-! ## Places in a frame -/

namespace Lowering

/-- Where locals and the scratch slot of a unit lie. -/
def cells (context : Context) (emitter : Emitter) : List (ValueKind × UInt16) :=
  context.locals.toList ++ emitter.scratch.toList.map (i32, ·)

theorem entriesFrom_append (next : Nat) (left right : List ValueKind) :
    entriesFrom next (left ++ right) =
      entriesFrom next left ++ entriesFrom (next + slotCount left) right := by
  induction left generalizing next with
  | nil => rfl
  | cons _ left ih =>
    rw [List.cons_append, entriesFrom, entriesFrom, ih, slotCount_cons, Nat.add_assoc]
    rfl

theorem FrameLayout.toList_eq (layout : FrameLayout kinds locals frameSlots) :
    locals.toList = entriesFrom 0 kinds := by
  apply List.ext_getElem?
  intro index
  rw [getElem?_entriesFrom, Array.getElem?_toList]
  cases found : kinds[index]? with
  | none =>
    have := List.getElem?_eq_none_iff.mp found
    exact Array.getElem?_eq_none (by rw [layout.size]; omega)
  | some =>
    obtain ⟨_, listed, place⟩ := layout.get found
    rw [listed, Nat.zero_add, ← place, UInt16.ofNat_toNat]
    rfl

/-- Locals and the scratch slot follow each other. -/
theorem cells_eq (layout : FrameLayout kinds context.locals frameSlots)
    (slots : FrameSlots frameSlots emitter.localSlots emitter.scratch) :
    ∃ more, cells context emitter = entriesFrom 0 (kinds ++ more) ∧
      emitter.localSlots = slotCount (kinds ++ more) := by
  unfold cells
  rw [layout.toList_eq]
  cases held : emitter.scratch with
  | none =>
    rw [held] at slots
    exact ⟨[], by simp, by rw [List.append_nil, ← layout.slots]; exact slots⟩
  | some slot =>
    rw [held] at slots
    refine ⟨[.i32], ?_, ?_⟩
    · rw [entriesFrom_append, Nat.zero_add, ← layout.slots, ← slots.1]
      simp [entriesFrom]
    · rw [slotCount_append, ← layout.slots]
      exact slots.2

section

variable (next : Nat) (kinds : List ValueKind) (small : next + slotCount kinds ≤ 65536)

include next kinds small

theorem mem_entriesFrom : ∀ cell ∈ entriesFrom next kinds, next ≤ cell.2.toNat ∧
      cell.2.toNat + cell.1.slots ≤ next + slotCount kinds := by
  induction kinds generalizing next with
  | nil =>
    intro cell absurd
    cases absurd
  | cons kind kinds ih =>
    rw [slotCount_cons] at small ⊢
    have positive := slots_pos kind
    intro cell member
    rcases List.mem_cons.mp member with rfl | member
    · have same : (UInt16.ofNat next).toNat = next := by
        rw [UInt16.toNat_ofNat']
        omega
      simp only [same]
      omega
    · have := ih (next + kind.slots) (by omega) cell member
      omega

theorem pairwise_entriesFrom : (entriesFrom next kinds).Pairwise fun cell other =>
      cell.2.toNat + cell.1.slots ≤ other.2.toNat := by
  induction kinds generalizing next with
  | nil => exact .nil
  | cons kind kinds ih =>
    rw [slotCount_cons] at small
    have positive := slots_pos kind
    have same : (UInt16.ofNat next).toNat = next := by
      rw [UInt16.toNat_ofNat']
      omega
    refine .cons (fun other member => ?_) (ih (next + kind.slots) (by omega))
    have := mem_entriesFrom (next + kind.slots) kinds (by omega) other member
    simp only [same]
    omega

end

theorem context_eq_ok {function : Nat} (known : Context.of source function = .ok context) :
    ∃ body, source.functionType function = some context.signature ∧
      source.body function = some body ∧
      FrameLayout (context.signature.params ++ body.locals) context.locals context.frameSlots := by
  cases typeFound : source.functionType function with
  | none => simp [Context.of, typeFound] at known
  | some =>
    cases bodyFound : source.body function with
    | none => simp [Context.of, typeFound, bodyFound] at known
    | some body =>
      rcases context_outcome typeFound bodyFound with
        ⟨other, made, _, rfl, layout⟩ | ⟨error, failed, _⟩
      · cases known.symm.trans made
        exact ⟨body, rfl, rfl, layout⟩
      · cases known.symm.trans failed

/-! ## Code that begins with the prologue -/

theorem eq_plain_of_map {f : τ → σ} {code : List (Machine.Instruction τ)} {actions : List Action}
    (same : code.map (Machine.Instruction.retarget f) = actions.map .plain) :
    code = actions.map .plain := by
  induction code generalizing actions with
  | nil => simpa using same
  | cons instr code ih =>
    cases actions with
    | nil => cases same
    | cons action actions =>
      rw [List.map_cons, List.map_cons, List.cons.injEq] at same
      rw [ih same.2, List.map_cons]
      cases instr with
      | plain other => rw [Machine.Instruction.plain.inj same.1]
      | _ => cases same.1

/-- What a loaded unit begins with. -/
structure Starts (source : Module) (function : Nat) (code : List Normalized) (unit : LoadedUnit)
    (context : Context) (emitter first : Emitter) (body : Body) (actions : List Action) : Prop where
  emission : emitted source function code = .ok (context, emitter)
  started : prologue context (.new function context.frameSlots) = .ok first
  typed : source.functionType function = some context.signature
  defined : source.body function = some body
  layout : FrameLayout (context.signature.params ++ body.locals) context.locals context.frameSlots
  slots : FrameSlots context.frameSlots emitter.localSlots emitter.scratch
  signature : unit.signature = context.signature
  localSlots : unit.localSlots = emitter.localSlots
  prologue : Prologue context first.signatures actions
  size : first.instructions.size = actions.length
  code : plain actions <+: unit.code.toList

theorem exists_starts {function : Nat}
    (lowered : Lowering.function source function code limit = .ok made)
    (loaded : made.load = .ok unit) : ∃ context emitter first body actions,
      Starts source function code unit context emitter first body actions := by
  rw [function_eq] at lowered
  obtain ⟨⟨context, emitter⟩, emission, finished⟩ := bind_eq_ok.mp lowered
  obtain ⟨known, first, started, ended⟩ := emitted_eq_ok emission
  obtain ⟨body, typeFound, bodyFound, layout⟩ := context_eq_ok known
  have fresh : Building context.frameSlots [] [] (.new function context.frameSlots) :=
    ⟨represents_new function context.frameSlots, Nat.zero_le _, rfl⟩
  obtain ⟨actions, _, done, builds, prologue⟩ | ⟨_, failed, _⟩ := fresh.prologue (by
    rw [layout.size, length_append]
    omega)
  · obtain rfl := Except.ok.inj (started.symm.trans done)
    have front : first.instructions.toList = actions.map .plain := by
      rw [builds.represents.code.1, Emitter.labelled, List.nil_append, plain, List.map_map,
        List.map_map]
      rfl
    have grown := (kept_grown first).instructions context ⟨rfl, .refl first⟩
      fun (_ : _) (_ : _ ∈ code) _ _ => trivial
    rw [ended] at grown
    obtain ⟨_, _, slots, _, appended, _⟩ := grown
    obtain ⟨_, lowered, _, represents, guarded⟩ := kept_guards.of_emitted emission
      ⟨rfl, [], [], represents_new _ _, ⟨by simp, by simp⟩⟩
    obtain ⟨_, loads, sameType, localSlots, same, _⟩ :=
      represents.load_of_finish guarded.encodable finished
    cases loaded.symm.trans loads
    refine ⟨context, emitter, first, body, actions, emission, started, typeFound, bodyFound, layout,
      slots builds.slots, sameType, localSlots, prologue, ?_, ?_⟩
    · simpa using congrArg List.length front
    · have held := represents.code.1.symm.trans (appended.trans (congrArg (· ++ _) front))
      rw [Emitter.labelled, List.map_map] at held
      obtain ⟨_, rest, rfl, starts, _⟩ := List.map_eq_append_iff.mp held
      rw [same, List.map_append, eq_plain_of_map (eq_plain_of_map (List.map_map.trans starts)),
        plain,
        List.map_map]
      exact List.prefix_append _ _
  · cases started.symm.trans failed

end Lowering

/-! ## The run of the prologue -/

namespace World

open Lowering

/-- What straight code works on: boxes, operands and local slots. -/
structure Work where
  boxes : Boxes
  slots : Stack UInt32
  locals : List UInt32

/-- A unit at work. -/
def working (world : World) (unit : LoadedUnit) (base position : Nat) (work : Work) : World :=
  { world with
    thread := { world.thread with boxes := work.boxes, slots := work.slots }
    control := .unit ⟨unit, position, base, work.locals.toArray⟩ }

/-- An action changes what code works on and nothing else. -/
def Acts (action : Action) (before after : Work) : Prop :=
  ∀ owner dispatch store unit position base,
    act ⟨owner, dispatch, before.boxes, before.slots, store⟩
        ⟨unit, position, base, before.locals.toArray⟩ action =
      (.ok (.run ⟨unit, position, base, after.locals.toArray⟩),
        ⟨owner, dispatch, after.boxes, after.slots, store⟩)

/-- So do actions one after the other. -/
def Carries (actions : List Action) (before after : Work) : Prop :=
  ∀ (world : World) (unit : LoadedUnit) (base position : Nat),
    plain actions <+: unit.code.toList.drop position →
    step^[actions.length] (working world unit base position before) =
      working world unit base (position + actions.length) after

theorem Carries.nil (work : Work) : Carries [] work work := fun _ _ _ _ _ => rfl

theorem Carries.cons (acts : Acts action before middle) (carries : Carries actions middle after) :
    Carries (action :: actions) before after := by
  intro world unit base position begins
  obtain ⟨rest, code⟩ := begins
  have here : unit.code[position]? = some (.plain action) := by
    rw [← Array.getElem?_toList, ← List.head?_drop, ← code]
    rfl
  have next : plain actions <+: unit.code.toList.drop (position + 1) := by
    refine ⟨rest, ?_⟩
    rw [← List.drop_drop, ← code]
    rfl
  have stepped : step (working world unit base position before) =
      working world unit base (position + 1) middle := by
    simp only [step, working, Compiled.step, here]
    rw [acts]
    rfl
  rw [List.length_cons, Function.iterate_succ_apply, stepped, carries _ _ _ _ next,
    Nat.add_assoc, Nat.add_comm 1]

theorem Carries.append (first : Carries left before middle) (second : Carries right middle after) :
    Carries (left ++ right) before after := by
  intro world unit base position begins
  obtain ⟨rest, code⟩ := begins
  rw [plain, List.map_append, append_assoc] at code
  rw [length_append, Nat.add_comm, Function.iterate_add_apply,
    first world unit base position ⟨_, code⟩, second world unit base _ ⟨rest, ?_⟩]
  · rw [Nat.add_comm right.length, Nat.add_assoc]
  · rw [← List.drop_drop, ← code, List.drop_left' (List.length_map _)]
    rfl

variable {boxes : Boxes} {slots : Stack UInt32} {front back old : List UInt32} {kind : ValueKind}
  {slot : UInt16}

theorem acts_store (payload : UInt64) (width : widthOf kind = wide)
    (place : slot.toNat = front.length) (length : old.length = kind.slots) : Acts (.store wide slot)
      ⟨boxes, slots.pushAll (payloadSlots kind payload), front ++ (old ++ back)⟩
      ⟨boxes, slots, front ++ (payloadSlots kind payload ++ back)⟩ := by
  intro _ _ store _ _ _
  subst width
  unfold widthOf payloadSlots
  split
  · rename_i narrow
    obtain ⟨slot, rfl⟩ := List.length_eq_one_iff.mp (length.trans narrow)
    simp [act, storeLocal, running, Stack.pushAll, pop_push, place]
  · have wide : kind.slots = 2 := by cases kind <;> simp_all [ValueKind.slots]
    obtain ⟨_, _, rfl⟩ := List.length_eq_two.mp (length.trans wide)
    simp [act, storeLocal, running, Stack.pushAll, pop_push, place]

theorem acts_load (payload : UInt64) (place : slot.toNat = front.length) :
    Acts (.load (widthOf kind) slot) ⟨boxes, slots, front ++ (payloadSlots kind payload ++ back)⟩
      ⟨boxes, slots.pushAll (payloadSlots kind payload),
        front ++ (payloadSlots kind payload ++ back)⟩ := by
  intro _ _ _ _ _ _
  unfold widthOf payloadSlots
  split <;> simp [act, running, Stack.pushAll, place]

theorem encodeValues_append (left right : List Value) :
    encodeValues (left ++ right) = encodeValues left ++ encodeValues right :=
  List.flatMap_append

theorem kind_default (kind : ValueKind) : kind.default.kind = kind := by
  cases kind <;> rfl

/-- Numbers have their default in a fresh frame, and references get theirs. -/
theorem carries_nullStores (front : List UInt32) (kinds : List ValueKind) (more : Nat)
    (small : front.length + slotCount kinds ≤ 65535) :
    Carries (nullStores (entriesFrom front.length kinds))
      ⟨boxes, slots, front ++ replicate (slotCount kinds + more) 0⟩
      ⟨boxes, slots, front ++ (encodeValues (kinds.map default) ++ replicate more 0)⟩ := by
  induction kinds generalizing front with
  | nil =>
    rw [slotCount, List.map_nil, List.sum_nil, Nat.zero_add]
    exact .nil _
  | cons kind kinds ih =>
    rw [slotCount_cons] at small ⊢
    have length : (payloadSlots kind kind.default.payload).length = kind.slots :=
      length_payloadSlots kind _
    have rest := ih (front ++ payloadSlots kind kind.default.payload)
      (by rw [length_append, length]; omega)
    rw [length_append, length, append_assoc, append_assoc] at rest
    rw [Nat.add_assoc, List.replicate_add, List.map_cons, encodeValues_cons, kind_default,
      append_assoc]
    rw [nullStores, entriesFrom, List.flatMap_cons]
    split
    · have place : (UInt16.ofNat front.length).toNat = front.length := by
        rw [UInt16.toNat_ofNat']
        omega
      have wide : widthOf kind = .two := by
        cases kind <;> first | rfl | contradiction
      have zeros : (replicate kind.slots (0 : UInt32)).length = kind.slots := List.length_replicate
      refine .cons ?_ (.cons (acts_store _ wide place zeros) rest)
      cases kind <;> first | contradiction | exact fun _ _ _ _ _ _ => rfl
    · have zeros : payloadSlots kind kind.default.payload = replicate kind.slots 0 := by
        cases kind <;> first | rfl | contradiction
      rw [← zeros]
      exact rest

variable {context : Lowering.Context} {values : List Value}

/-- Parameters are stored from the last one on. -/
theorem carries_paramStores (back : List UInt32)
    (layout : ∀ {index value}, values[index]? = some value → ∃ slot,
      context.locals[index]? = some (value.kind, slot) ∧ slot.toNat = (encodeValues (values.take
      index)).length) (few : count ≤ values.length)
    (length : front.length = (encodeValues (values.take count)).length) :
    Carries (paramStores context count)
      ⟨boxes, slots.pushAll (encodeValues (values.take count)), front ++ back⟩
      ⟨boxes, slots, encodeValues (values.take count) ++ back⟩ := by
  induction count generalizing front back with
  | zero =>
    obtain rfl := List.eq_nil_of_length_eq_zero length
    exact .nil _
  | succ count ih =>
    obtain ⟨slot, found, place⟩ := layout (List.getElem?_eq_getElem few)
    have split : encodeValues (values.take (count + 1)) = encodeValues (values.take count) ++
        payloadSlots values[count].kind values[count].payload := by
      rw [List.take_succ_eq_append_getElem few, encodeValues_append]
      simp [encodeValues]
    have own := length_payloadSlots values[count].kind values[count].payload
    rw [split, length_append, own] at length
    rw [split, ← pushAll_append, paramStores, found, append_assoc]
    -- The slots in front of those of the last parameter stay as they are.
    obtain ⟨earlier, last, rfl, before⟩ : ∃ earlier last, front = earlier ++ last ∧
        earlier.length = (encodeValues (values.take count)).length :=
      ⟨front.take (encodeValues (values.take count)).length, _,
        (List.take_append_drop _ front).symm, by rw [List.length_take]; omega⟩
    rw [length_append] at length
    rw [append_assoc]
    exact .cons (acts_store _ rfl (place.trans before.symm) (by omega)) (ih _ (by omega) before)

theorem getD_setIfInBounds_ne (locals : Array UInt32) (value : UInt32) (apart : place ≠ other) :
    (locals.setIfInBounds place value).getD other 0 = locals.getD other 0 := by
  rw [Array.getD_eq_getD_getElem?, Array.getD_eq_getD_getElem?,
    Array.getElem?_setIfInBounds_ne apart]

/-- A store at one place of a frame is not seen at a place apart from it. -/
theorem store_keeps {cell other : ValueKind × UInt16}
    (apart : cell.2.toNat + cell.1.slots ≤ other.2.toNat ∨
      other.2.toNat + other.1.slots ≤ cell.2.toNat) (scene : Scene) (frame : Frame) :
    ∃ after later, act scene frame (.store (widthOf cell.1) cell.2) = (.ok (.run after), later) ∧
      ∀ scene, (act scene after (.load (widthOf other.1) other.2)).2 =
        (act scene frame (.load (widthOf other.1) other.2)).2 := by
  have sizes : ∀ kind, kind.slots = 1 ∧ widthOf kind = .one ∨
      kind.slots = 2 ∧ widthOf kind = .two := by
    intro kind
    cases kind <;> decide
  obtain ⟨_, _⟩ := frame
  rcases sizes cell.1 with ⟨size, width⟩ | ⟨size, width⟩ <;>
    rcases sizes other.1 with ⟨size', width'⟩ | ⟨size', width'⟩ <;>
    rw [size, size'] at apart <;> rw [width, width'] <;>
    refine ⟨_, _, rfl, fun scene => ?_⟩ <;>
    simp (disch := omega) only [act, running, getD_setIfInBounds_ne]

/-- The thread of a caller that has passed arguments. -/
def passing (thread : Thread) (type : FunctionType) (args : List Value) : Thread :=
  let (boxes, slots) := pushArguments thread.boxes type args thread.slots
  { thread with boxes, slots }

theorem enter_pushAll (unit : LoadedUnit) (operands : Stack UInt32)
    (length : passed.length = argSlots unit.signature) : enter unit (operands.pushAll passed) =
      (⟨unit, 0, operands.height, (passed ++
        replicate (unit.localSlots - passed.length) 0).toArray⟩, operands) := by
  simp only [enter, ← length, last_pushAll, drop_pushAll]
  congr 5
  omega

theorem place_of_layout (layout : FrameLayout kinds locals frameSlots)
    (same : values.map Value.kind = kinds) (found : values[index]? = some value) :
    ∃ slot, locals[index]? = some (value.kind, slot) ∧
      slot.toNat = (encodeValues (values.take index)).length := by
  have listed : kinds[index]? = some value.kind := by
    rw [← same, List.getElem?_map, found]
    rfl
  obtain ⟨slot, at_, place⟩ := layout.get listed
  refine ⟨slot, at_, ?_⟩
  rw [place, length_encodeValues, List.map_take, same]

section Prologue

variable {context : Lowering.Context} {signatures : Array FunctionType} {actions : List Action}
  {declared : List ValueKind} {args : List Value}

/-- The prologue brings arguments to their places, whichever way they come. -/
theorem carries_prologue (prologue : Prologue context signatures actions)
    (layout : FrameLayout (context.signature.params ++ declared) context.locals context.frameSlots)
    (kinds : args.map Value.kind = context.signature.params) (used : boxes.Used)
    (few : boxes.cells.size < 2 ^ 32) (slots : Stack UInt32) (more : Nat) : ∃ passed after,
      (pushArguments boxes context.signature args slots).2 = slots.pushAll passed ∧
      passed.length = argSlots context.signature ∧ Carries actions
        ⟨(pushArguments boxes context.signature args slots).1, slots,
          passed ++ replicate (context.frameSlots + more - passed.length) 0⟩
        ⟨after, slots, encodeValues (args ++ declared.map default) ++ replicate more 0⟩ := by
  have length : (encodeValues args).length = context.signature.paramSlots := by
    rw [length_encodeValues, kinds]
    rfl
  have same : (args ++ declared.map default).map Value.kind =
      context.signature.params ++ declared := by
    simp [kinds, Function.comp_def, kind_default]
  have total := layout.slots
  have small := layout.small
  rw [slotCount_append] at total
  have entries : context.locals.toList.drop context.signature.params.length =
      entriesFrom (encodeValues args).length declared := by
    rw [layout.toList_eq, entriesFrom_append, List.drop_left'
      (length_entriesFrom _ _), Nat.zero_add, length]
    rfl
  obtain ⟨_, unpacks, rfl⟩ := prologue
  rw [entries]
  change context.frameSlots = context.signature.paramSlots + _ at total
  have defaults : ∀ after, Carries (nullStores (entriesFrom (encodeValues args).length declared))
      ⟨after, slots, encodeValues args ++
        replicate (slotCount declared + more) 0⟩
      ⟨after, slots, encodeValues (args ++ declared.map default) ++
        replicate more 0⟩ := by
    intro after
    rw [encodeValues_append, append_assoc]
    exact carries_nullStores _ declared more (by omega)
  unfold Unpacks at unpacks
  unfold pushArguments argSlots
  cases convention : Convention.of context.signature with
  | slots =>
    rw [convention] at unpacks
    subst unpacks
    refine ⟨encodeValues args, boxes, rfl, length, ?_⟩
    rw [show context.frameSlots + more - (encodeValues args).length =
      slotCount declared + more by omega]
    exact defaults boxes
  | boxed =>
    rw [convention] at unpacks
    obtain ⟨signature, _, rfl⟩ := unpacks
    obtain ⟨after, taken⟩ := used.tidy.take_put few (encodeValues args)
    have positive : 253 < context.signature.paramSlots := by
      unfold Convention.of at convention
      split at convention
      · assumption
      · cases convention
    cases put : boxes.put (encodeValues args) with
    | mk handle filled =>
      rw [put] at taken
      have loads : ∀ rest, Acts (.load .one 0) ⟨filled, slots, handle :: rest⟩
          ⟨filled, slots.push handle, handle :: rest⟩ := fun _ _ _ _ _ _ _ => rfl
      have unboxes : ∀ locals, Acts (.unbox .params signature) ⟨filled, slots.push handle, locals⟩
          ⟨after, slots.pushAll (encodeValues args), locals⟩ := by
        intro locals _ _ _ _ _ _
        simp [act, unboxTop, pop_push, taken]
      have stores : Carries (paramStores context args.length)
          ⟨after, slots.pushAll (encodeValues args),
            handle :: replicate (context.frameSlots + more - 1) 0⟩
          ⟨after, slots, encodeValues args ++
            replicate (slotCount declared + more) 0⟩ := by
        have front : (handle :: replicate (context.signature.paramSlots - 1) 0).length =
            (encodeValues (args.take args.length)).length := by
          rw [List.length_cons, List.length_replicate, List.take_length]
          omega
        have places : ∀ {index value}, args[index]? = some value →
            ∃ slot, context.locals[index]? = some (value.kind, slot) ∧
              slot.toNat = (encodeValues (args.take index)).length := by
          intro index value found
          have inside := lt_length found
          rw [← List.take_append_of_le_length (Nat.le_of_lt inside)]
          exact place_of_layout layout same ((List.getElem?_append_left inside).trans found)
        have carries : Carries _ ⟨after, slots.pushAll _, _⟩ _ :=
          carries_paramStores (replicate (slotCount declared + more) 0) places
            (Nat.le_refl args.length) front
        rwa [List.take_length, List.cons_append, ← List.replicate_add,
          show context.signature.paramSlots - 1 + (slotCount declared + more) =
            context.frameSlots + more - 1 by omega] at carries
      simp only [put]
      rw [← kinds, List.length_map]
      exact ⟨[handle], after, rfl, rfl,
        .append (.cons (loads _) (.cons (unboxes _) stores)) (defaults after)⟩

end Prologue

/-- The places of a frame are apart from each other, so a store at one is not seen at another. -/
structure Apart (cells : List (ValueKind × UInt16)) (localSlots : Nat) : Prop where
  inside : ∀ cell ∈ cells, cell.2.toNat + cell.1.slots ≤ localSlots
  disjoint : cells.Pairwise fun cell other => cell.2.toNat + cell.1.slots ≤ other.2.toNat
  keeps : ∀ {index place : Nat} {cell other : ValueKind × UInt16}, cells[index]? = some cell →
    cells[place]? = some other → index ≠ place →
    ∀ (scene : Scene) (frame : Frame), ∃ after later,
      act scene frame (.store (widthOf cell.1) cell.2) = (.ok (.run after), later) ∧
      ∀ scene, (act scene after (.load (widthOf other.1) other.2)).2 =
        (act scene frame (.load (widthOf other.1) other.2)).2

theorem apart_cells (layout : FrameLayout kinds context.locals frameSlots)
    (slots : FrameSlots frameSlots emitter.localSlots emitter.scratch) :
    Apart (cells context emitter) emitter.localSlots := by
  have small : emitter.localSlots ≤ 65536 := by
    have := layout.small
    unfold FrameSlots at slots
    split at slots <;> omega
  obtain ⟨more, same, total⟩ := cells_eq layout slots
  rw [same, total]
  have disjoint := pairwise_entriesFrom 0 (kinds ++ more) (by omega)
  refine ⟨fun cell member => ?_, disjoint, fun found there distinct => store_keeps ?_⟩
  · have := mem_entriesFrom 0 (kinds ++ more) (by omega) cell member
    omega
  · obtain ⟨inside, rfl⟩ := List.getElem?_eq_some_iff.mp found
    obtain ⟨within, rfl⟩ := List.getElem?_eq_some_iff.mp there
    rcases Nat.lt_or_gt_of_ne distinct with less | more
    · exact .inl (List.pairwise_iff_getElem.mp disjoint _ _ inside within less)
    · exact .inr (List.pairwise_iff_getElem.mp disjoint _ _ within inside more)

/-- The instruction that is emitted for the reading of a local pushes its value. -/
def Reads (context : Lowering.Context) (frame : Frame) (values : List Value) : Prop :=
  ∀ index value, values[index]? = some value →
    ∃ action, (∀ emitter, Lowering.localGet context emitter index = .ok (emitter.emit action)) ∧
      ∀ scene, act scene frame action = (.ok (.run frame),
        { scene with operands := scene.operands.pushAll (payloadSlots value.kind value.payload) })

theorem reads_of_layout (layout : Lowering.FrameLayout kinds context.locals frameSlots)
    (same : values.map Value.kind = kinds) (unit : LoadedUnit) (position base : Nat)
    (rest : List UInt32) :
    Reads context ⟨unit, position, base, (encodeValues values ++ rest).toArray⟩ values := by
  intro index value found
  obtain ⟨slot, listed, place⟩ := place_of_layout layout same found
  refine ⟨.load (widthOf value.kind) slot, fun _ => ?_, fun scene => ?_⟩
  · rw [Lowering.localGet, Lowering.Context.local, listed]
    rfl
  · obtain ⟨inside, rfl⟩ := List.getElem?_eq_some_iff.mp found
    have split : encodeValues values ++ rest = encodeValues (values.take index) ++
        (payloadSlots values[index].kind values[index].payload ++
          (encodeValues (values.drop (index + 1)) ++ rest)) := by
      have whole : values.take index ++ values[index] :: values.drop (index + 1) = values := by
        rw [← List.drop_eq_getElem_cons inside, List.take_append_drop]
      rw [← append_assoc, ← append_assoc, append_assoc (encodeValues _),
        ← encodeValues_cons, ← encodeValues_append, whole]
    rw [split]
    exact acts_load _ place scene.owner scene.dispatch scene.store unit position base

/-- How the code of a call passes arguments that lie on the operands. -/
def PassesOperands (thread : Thread) (type : FunctionType) (args : List Value) : Prop :=
  match Convention.of type with
  | .slots => passing thread type args =
      { thread with slots := thread.slots.pushAll (encodeValues args) }
  | .boxed => ∀ (scene : Scene) (frame : Frame) (signature : UInt16),
      signatureOf frame.unit signature = .ok type → scene.boxes = thread.boxes →
      scene.operands = thread.slots.pushAll (encodeValues args) →
      act scene frame (.box .params signature) = (.ok (.run frame), { scene with
          boxes := (passing thread type args).boxes
          operands := (passing thread type args).slots })

theorem passesOperands (thread : Thread) (kinds : args.map Value.kind = type.params) :
    PassesOperands thread type args := by
  unfold PassesOperands passing pushArguments
  cases Convention.of type with
  | slots => rfl
  | boxed =>
    intro _ _ _ found boxes operands
    have length : (encodeValues args).length = LoadedUnit.parcelSlots type .params := by
      rw [length_encodeValues, kinds]
      rfl
    simp only [act, boxTop, found, boxes, operands, ← length, last_pushAll, drop_pushAll]

/-- A unit that starts, from outside or by a call of another unit, runs its prologue to the end;
then the reading of its locals gives the arguments and the defaults of declared locals. Its locals
and its scratch slot lie apart in its frame. -/
theorem entry_delivers_locals {source : Module} {function limit : Nat} {code : List Normalized}
    {made : CodeUnit} {unit : LoadedUnit}
    (lowered : Lowering.function source function code limit = .ok made)
    (loaded : made.load = .ok unit) {thread : Thread}
    (linked : thread.program.bind (·.units[function]?) = some unit) (used : thread.boxes.Used)
    (few : thread.boxes.cells.size < 2 ^ 32) {store : Store} (shallow : tooDeep store = false)
    {args : List Value} (kinds : args.map Value.kind = unit.signature.params)
    (stack : List Context) (trace : List HostCall) :
    ∃ context emitter first body,
      Lowering.emitted source function code = .ok (context, emitter) ∧
      Lowering.prologue context (.new function context.frameSlots) = .ok first ∧
      source.functionType function = some unit.signature ∧ source.body function = some body ∧
      Apart (Lowering.cells context emitter) unit.localSlots ∧
      startUnit store thread stack trace function args =
        enterUnit store (passing thread unit.signature args) stack trace function
          (.unitEntry unit.signature thread.slots.height) ∧
      PassesOperands thread unit.signature args ∧
      ∀ wait, ∃ boxes frame,
        step^[first.instructions.size]
          (enterUnit store (passing thread unit.signature args) stack trace
          function wait) = ⟨{ store with depth := store.depth + 1 }, { thread with boxes },
            .unit frame, wait :: stack, trace⟩ ∧
        frame.unit = unit ∧ frame.position = first.instructions.size ∧
        Reads context frame (args ++ body.locals.map ValueKind.default) := by
  obtain ⟨context, emitter, first, body, actions, starts⟩ := Lowering.exists_starts lowered loaded
  rw [starts.signature] at kinds ⊢
  rw [starts.localSlots]
  refine ⟨context, emitter, first, body, starts.emission, starts.started, starts.typed,
    starts.defined, apart_cells starts.layout starts.slots, ?_, passesOperands thread kinds,
    fun wait => ?_⟩
  · rw [startUnit, linked]
    simp only [passing, starts.signature]
  · obtain ⟨more, grown⟩ : ∃ more, unit.localSlots = context.frameSlots + more := by
      have slots := starts.slots
      rw [starts.localSlots]
      unfold Lowering.FrameSlots at slots
      split at slots
      · exact ⟨0, slots⟩
      · exact ⟨1, slots.2⟩
    obtain ⟨passed, after, pushed, length, carries⟩ :=
      carries_prologue starts.prologue starts.layout kinds used few thread.slots more
    have entered : enterUnit store (passing thread context.signature args) stack trace function
        wait = working ⟨{ store with depth := store.depth + 1 }, thread, .done .returned,
          wait :: stack, trace⟩ unit thread.slots.height 0
            ⟨(passing thread context.signature args).boxes, thread.slots,
            passed ++ replicate (context.frameSlots + more - passed.length) 0⟩ := by
      unfold enterUnit
      rw [if_neg (by simp [shallow])]
      simp only [passing, linked, pushed]
      rw [enter_pushAll unit thread.slots (by rw [length, starts.signature]), grown]
      rfl
    have ran := carries ⟨{ store with depth := store.depth + 1 }, thread, .done .returned,
      wait :: stack, trace⟩ unit thread.slots.height 0 starts.code
    rw [Nat.zero_add] at ran
    rw [starts.size, entered]
    refine ⟨after, _, ran, rfl, rfl, reads_of_layout starts.layout ?_ _ _ _ _⟩
    simp [kinds, Function.comp_def, kind_default]

/-- A function whose arguments travel in a box. -/
def boxedSource : Module :=
  { types := #[⟨replicate 127 .i64, []⟩]
    functions := #[0]
    bodies := #[⟨[.externRef, .f32], #[]⟩] }

theorem entry_delivers_locals_boxed :
    ∃ made unit context first boxes frame,
      Lowering.function boxedSource 0 [.leave []] 1000 = .ok made ∧ made.load = .ok unit ∧
      Convention.of unit.signature = .boxed ∧
      Lowering.prologue context (.new 0 context.frameSlots) = .ok first ∧
      step^[first.instructions.size] (startUnit {} { program := some ⟨#[unit], #[], #[]⟩ } [] [] 0
        (List.replicate 127 (.i64 5))) =
        ⟨{ depth := 1 }, { program := some ⟨#[unit], #[], #[]⟩, boxes }, .unit frame,
          [.unitEntry unit.signature 0], []⟩ ∧
      Reads context frame (List.replicate 127 (.i64 5) ++ [.externRef none, .f32 0]) := by
  have facts : ((Lowering.function boxedSource 0 [.leave []] 1000).toOption.bind fun made =>
      made.load.toOption.map LoadedUnit.signature) = some ⟨replicate 127 .i64, []⟩ := by
    decide +kernel
  obtain ⟨made, lowered, facts⟩ := Option.bind_eq_some_iff.mp facts
  obtain ⟨unit, loaded, signature⟩ := Option.map_eq_some_iff.mp facts
  replace lowered := ok_of_toOption lowered
  replace loaded := ok_of_toOption loaded
  obtain ⟨context, emitter, first, body, _, started, _, found, _, starts, _, every⟩ :=
    @entry_delivers_locals _ _ _ _ _ _ lowered loaded { program := some ⟨#[unit], #[], #[]⟩ } rfl
      .empty (Nat.two_pow_pos 32) {} rfl (replicate 127 (.i64 5)) (by rw [signature]; decide)
      [] []
  obtain ⟨boxes, frame, ran, _, _, reads⟩ := every (.unitEntry unit.signature 0)
  cases found
  exact ⟨made, unit, context, first, boxes, frame, lowered, loaded,
    by rw [signature]; decide +kernel, started, by rw [starts]; exact ran, reads⟩

end World

end TwinEngine
