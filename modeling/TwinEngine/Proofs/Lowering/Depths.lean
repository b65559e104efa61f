import TwinEngine.Proofs.Lowering.Assembly
import TwinEngine.Proofs.Machine.Stance
import TwinEngine.Proofs.Normal.Typing

/-!
Contract: what the frames of a lowered unit hold.

Owns: that the segment of a normalized instruction takes the slots of the kinds in front of it to
those of the kinds behind it, the same for the prologue, and that a unit assembled from typed code
passes the check.
-/

namespace TwinEngine.Lowering

open Machine hiding Instruction
open TwinEngine.Normal
open LoadedUnit (actionEffect touches_of_none)
open ValueKind (slotCount i32)

/-! ## Runs of segments -/

section Runs

variable (unit : LoadedUnit) (lands : Nat → Stance → Prop) (next : Stance → Prop)

/-- Control that enters a segment with what a frame holds reaches only names and an end of which
the given properties hold. -/
def Runs : Segment → Stance → Prop
  | [], stance => next stance
  | instr :: rest, stance =>
    ∃ after, Steps unit stance after instr ∧
      (∀ name ∈ instr.targets, lands name after) ∧
      (instr.terminates = false → Runs rest after)

variable {unit lands next}

theorem Runs.action {action : Action} (moves : Moves unit action before after)
    (runs : Runs unit lands next rest after) :
    Runs unit lands next (.plain action :: rest) before :=
  ⟨after, moves, fun _ jumps => absurd jumps List.not_mem_nil, fun _ => runs⟩

theorem Runs.stop {action : Action} (moves : Moves unit action before after)
    (stops : (Machine.Instruction.plain action : Machine.Instruction Nat).terminates = true) :
    Runs unit lands next (.plain action :: rest) before :=
  ⟨after, moves, fun _ jumps => absurd jumps List.not_mem_nil,
    fun goes => by rw [stops] at goes; cases goes⟩

theorem Runs.append (runs : Runs unit lands (Runs unit lands next rest) (plain actions) stance) :
    Runs unit lands next (plain actions ++ rest) stance := by
  induction actions generalizing stance with
  | nil => exact runs
  | cons _ actions ih =>
    obtain ⟨after, steps, jumps, goes⟩ := runs
    exact ⟨after, steps, jumps, fun on => ih (goes on)⟩

theorem Runs.polled {segment : Segment} {jump : Machine.Instruction Nat}
    (polled : Polled segment jump) (steps : Steps unit before after jump)
    (jumps : ∀ name ∈ jump.targets, lands name after)
    (goes : jump.terminates = false → next after) : Runs unit lands next segment before := by
  have only : Runs unit lands next [jump] before := ⟨after, steps, jumps, goes⟩
  rcases polled with rfl | rfl
  · exact only
  · exact Runs.action rfl only

end Runs

/-! ## Segments of typed instructions -/

def holding (stack : List ValueKind) : Stance := .plain (slotCount stack)

theorem holding_append (above beneath : List ValueKind) : holding (above ++ beneath) =
      .plain (slotCount beneath + slotCount above) := by
  rw [holding, slotCount_append, Nat.add_comm]

theorem holding_cons (kind : ValueKind) (beneath : List ValueKind) :
    holding (kind :: beneath) = .plain (slotCount beneath + kind.slots) := by
  rw [holding, slotCount_cons, Nat.add_comm]

@[simp] theorem slots_widthOf (kind : ValueKind) : (widthOf kind).slots = kind.slots := by
  cases kind <;> rfl

/-- What a unit has in common with the context that it was lowered in. -/
structure Fitting (context : Context) (locals : List ValueKind) (scratch : Option UInt16)
    (unit : LoadedUnit) : Prop where
  layout : FrameLayout locals context.locals context.frameSlots
  slots : FrameSlots context.frameSlots unit.localSlots scratch
  signature : unit.signature = context.signature
  tables : ∀ {index : Nat} {type : TableType}, context.source.tables[index]? = some type →
    type.element.isRef = true

section Segments

variable {context : Context} {locals : List ValueKind} {scratch : Option UInt16}
  {unit : LoadedUnit} {lands : Nat → Stance → Prop} {next : Stance → Prop}

theorem Fitting.frameSlots_le (fitting : Fitting context locals scratch unit) :
    context.frameSlots ≤ unit.localSlots := by
  have slots := fitting.slots
  cases scratch with
  | none => exact Nat.le_of_eq slots.symm
  | some => rw [slots.2]; omega

theorem slots_pos (kind : ValueKind) : 0 < kind.slots := by
  cases kind <;> decide

theorem Fitting.local_lt (fitting : Fitting context locals scratch unit) {index : Nat}
    (found : locals[index]? = some kind) : ∃ slot, context.locals[index]? = some (kind, slot) ∧
      slot.toNat + kind.slots ≤ unit.localSlots := by
  obtain ⟨slot, entry, _⟩ := fitting.layout.get found
  have taken := slotCount_take_le locals (index + 1)
  rw [List.take_add_one, found, Option.toList_some, slotCount_append] at taken
  have single : slotCount [kind] = kind.slots := by simp [slotCount]
  have := fitting.layout.slots
  have := fitting.frameSlots_le
  exact ⟨slot, entry, by omega⟩

theorem moves_load (inside : slot.toNat + kind.slots ≤ unit.localSlots) :
    Moves unit (.load (widthOf kind) slot) (.plain depth) (.plain (depth + kind.slots)) := by
  cases width : widthOf kind with
  | one =>
    have single : kind.slots = 1 := by rw [← slots_widthOf, width]; rfl
    exact ⟨by omega, by rw [single]⟩
  | two =>
    have double : kind.slots = 2 := by rw [← slots_widthOf, width]; rfl
    refine ⟨?_, 0, 2, depth, rfl, rfl, by rw [double]⟩
    intro _ same
    cases same
    simp only [Width.slots]
    omega

theorem moves_store (inside : slot.toNat + kind.slots ≤ unit.localSlots) :
    Moves unit (.store (widthOf kind) slot) (.plain (depth + kind.slots)) (.plain depth) := by
  have positive := slots_pos kind
  refine ⟨?_, kind.slots, 0, depth, ?_, rfl, rfl⟩
  · intro _ same
    cases same
    rw [slots_widthOf]
    omega
  · rw [actionEffect, slots_widthOf]

theorem slots_i32 : i32.slots = 1 := rfl

theorem slots_of_isRef {kind : ValueKind} (reference : kind.isRef = true) : kind.slots = 2 := by
  cases kind <;> first | rfl | cases reference

/-- A single action that takes the slots of some kinds and leaves those of others. -/
theorem Runs.single {action : Action}
    (moves : ∀ depth, Moves unit action (.plain (depth + slotCount params))
      (.plain (depth + slotCount results))) (goes : next (holding (results.reverse ++ rest))) :
    Runs unit lands next (plain [action]) (holding (params.reverse ++ rest)) := by
  rw [holding_append, slotCount_reverse] at goes ⊢
  exact Runs.action (moves _) goes

theorem runs_operator (fitting : Fitting context locals scratch unit) {operator : Operator}
    {params results rest : List ValueKind}
    (effect : Validation.Effect context.source locals params results operator)
    (known : operatorActions context operator = some actions)
    (goes : next (holding (results.reverse ++ rest))) :
    Runs unit lands next (plain actions) (holding (params.reverse ++ rest)) := by
  cases operator with
  | localGet index =>
    obtain ⟨kind, found, rfl, rfl⟩ := effect
    obtain ⟨slot, entry, inside⟩ := fitting.local_lt found
    simp only [operatorActions_localGet, entry, Option.map_some, Option.some.injEq] at known
    subst known
    exact Runs.single (fun depth => moves_load inside) goes
  | localSet index =>
    obtain ⟨kind, found, rfl, rfl⟩ := effect
    obtain ⟨slot, entry, inside⟩ := fitting.local_lt found
    simp only [operatorActions_localSet, entry, Option.map_some, Option.some.injEq] at known
    subst known
    exact Runs.single (fun depth => moves_store inside) goes
  | globalGet index =>
    obtain ⟨global, found, rfl, rfl⟩ := effect
    simp only [operatorActions_globalGet, found, Option.map_some, Option.some.injEq] at known
    subst known
    refine Runs.single (fun depth => ⟨touches_of_none rfl, 0, _, depth, rfl, rfl, ?_⟩) goes
    rw [slots_widthOf]
    rfl
  | globalSet index =>
    obtain ⟨global, found, _, rfl, rfl⟩ := effect
    simp only [operatorActions_globalSet, found, Option.map_some, Option.some.injEq] at known
    subst known
    refine Runs.single (fun depth => ⟨touches_of_none rfl, _, 0, depth, rfl, ?_, rfl⟩) goes
    rw [slots_widthOf]
    rfl
  | load kind offset =>
    obtain ⟨_, rfl, rfl⟩ := effect
    cases known
    unfold loadActions
    split
    · exact Runs.single (fun depth => ⟨touches_of_none rfl, _, _, depth, rfl, rfl, rfl⟩)
        goes
    · exact Runs.action ⟨touches_of_none rfl, 1, 0, _, rfl, holding_cons .i32 rest, rfl⟩
        (Runs.stop rfl rfl)
  | store kind offset =>
    obtain ⟨_, rfl, rfl⟩ := effect
    cases known
    unfold storeActions
    split
    · refine Runs.single
        (fun depth => ⟨touches_of_none rfl, _, _, depth, rfl, ?_, rfl⟩) goes
      simp [slotCount, slots_i32]
    · have first : Moves unit (.pop (widthOf kind.operand)) (holding (kind.operand :: .i32 :: rest))
          (holding (.i32 :: rest)) :=
        ⟨touches_of_none rfl, kind.operand.slots, 0, _,
          by rw [actionEffect, slots_widthOf], holding_cons _ _, rfl⟩
      refine Runs.action first ?_
      exact Runs.action ⟨touches_of_none rfl, 1, 0, _, rfl, holding_cons .i32 rest, rfl⟩
        (Runs.stop rfl rfl)
  | constant value =>
    obtain ⟨rfl, rfl⟩ := effect
    cases value <;> cases known <;> exact Runs.single
      (fun depth => ⟨touches_of_none rfl, _, _, depth, rfl, rfl, rfl⟩) goes
  | refNull kind =>
    obtain ⟨reference, rfl, rfl⟩ := effect
    cases known
    refine Runs.single (fun depth => ⟨touches_of_none rfl, 0, 2, depth, rfl, rfl, ?_⟩) goes
    simp [slotCount, slots_of_isRef reference]
  | refIsNull =>
    obtain ⟨kind, reference, rfl, rfl⟩ := effect
    cases known
    refine Runs.single (fun depth => ⟨touches_of_none rfl, 2, 1, depth, rfl, ?_, rfl⟩) goes
    simp [slotCount, slots_of_isRef reference]
  | tableGet =>
    obtain ⟨type, found, rfl, rfl⟩ := effect
    cases known
    refine Runs.single (fun depth => ⟨touches_of_none rfl, 1, 2, depth, rfl, rfl, ?_⟩) goes
    simp [slotCount, slots_of_isRef (fitting.tables found)]
  | tableSet | tableGrow | tableFill =>
    obtain ⟨type, found, rfl, rfl⟩ := effect
    cases known
    refine Runs.single (fun depth => ⟨touches_of_none rfl, _, _, depth, rfl, ?_, rfl⟩) goes
    simp [slotCount, slots_i32, slots_of_isRef (fitting.tables found)]
  | tableSize | tableCopy | tableInit | memoryInit | elementDrop | memorySize | memoryGrow
  | memoryFill | memoryCopy | dataDrop | refFunc | numeric =>
    cases known
    first
    | obtain ⟨rfl, rfl⟩ := effect
    | obtain ⟨_, rfl, rfl⟩ := effect
    | obtain ⟨_, _, rfl, rfl⟩ := effect
    | obtain ⟨_, _, _, _, _, rfl, rfl⟩ := effect
    exact Runs.single (fun depth => ⟨touches_of_none rfl, _, _, depth, rfl, rfl, rfl⟩) goes
  | _ => cases known

/-- The results of a call are spread on the operands. -/
theorem runs_unboxing (pooled : Pooled unit.signatures signature type)
    (goes : next (.plain (depth + type.resultSlots))) :
    Runs unit lands next (plain (unboxing type signature)) (.returning type depth) := by
  unfold unboxing Stance.returning
  split
  · exact Runs.action ⟨type, depth, pooled, rfl, rfl⟩ goes
  · exact goes

theorem runs_boxing (pooled : Pooled unit.signatures signature type)
    (goes : next (.calling type depth)) :
    Runs unit lands next (plain (boxing type signature)) (.plain (depth + type.paramSlots)) := by
  unfold boxing
  unfold Stance.calling at goes
  split <;> rename_i convention <;> rw [convention] at goes
  · exact goes
  · exact Runs.action ⟨type, depth, pooled, rfl, rfl⟩ goes

section

variable (fitting : Fitting context locals scratch unit)

include fitting

theorem runs_boxes
    (pooled : Pooled unit.signatures signature type) (boxed : Boxes scratch type signature boxes)
    (goes : next (.choosing type depth)) :
    Runs unit lands next (plain boxes) (.plain (depth + type.paramSlots + 1)) := by
  unfold Boxes at boxed
  unfold Stance.choosing at goes
  split at boxed <;> rename_i convention <;> rw [convention] at goes
  · rw [boxed]
    exact goes
  · obtain ⟨slot, found, rfl⟩ := boxed
    have slots := fitting.slots
    rw [found] at slots
    have inside : slot.toNat < unit.localSlots := by
      have := slots.1
      have := slots.2
      omega
    refine Runs.action ⟨?_, 1, 0, _, rfl, rfl, rfl⟩ ?_
    · intro _ same
      cases same
      exact inside
    · refine Runs.action ⟨type, depth, pooled, rfl, rfl⟩ ?_
      exact Runs.action ⟨inside, rfl⟩ goes

/-- The segment of an instruction takes the slots of the kinds in front of it to those of the kinds
behind it. -/
theorem runs_of_flow {instr : Normalized} {segment : Segment}
    (flow : CodeFlow context.source context.signature locals there on stack instr)
    (lowers : Lowers context unit.signatures scratch instr segment)
    (landing : ∀ name kinds, there name kinds → lands name (holding kinds))
    (going : ∀ kinds, on kinds → next (holding kinds)) :
    Runs unit lands next segment (holding stack) := by
  have pops : ∀ rest : List ValueKind, ∃ depth, holding (.i32 :: rest) = .plain (depth + 1) ∧
      holding rest = .plain depth := fun rest => ⟨_, holding_cons .i32 rest, rfl⟩
  cases instr with
  | label name =>
    rw [show segment = [] from lowers]
    exact going _ flow
  | goto target =>
    refine Runs.polled lowers ⟨_, rfl, rfl⟩ ?_ (fun absurd => nomatch absurd)
    intro name member
    rw [List.mem_singleton.mp member]
    exact landing _ _ flow
  | ifZero target | ifNonzero target =>
    obtain ⟨rest, rfl, jumps, goes⟩ := flow
    refine Runs.polled lowers (pops rest) ?_ (fun _ => going _ goes)
    intro name member
    rw [List.mem_singleton.mp member]
    exact landing _ _ jumps
  | switch =>
    obtain ⟨nonempty, rest, rfl, jumps⟩ := flow
    exact Runs.polled lowers.2 ⟨nonempty, pops rest⟩
      (fun name member => landing _ _ (jumps name member)) (fun absurd => nomatch absurd)
  | dropKeep drop =>
    obtain ⟨rest, rfl, goes⟩ := flow
    have after := going _ goes
    rw [holding_append, slotCount_reverse] at after
    rw [holding_append, slotCount_reverse, slotCount_append, slotCount_reverse]
    simp only [Lowers] at lowers
    split at lowers
    · rename_i zero
      rw [lowers, zero, Nat.zero_add]
      exact after
    · obtain ⟨_, narrow, rfl⟩ := lowers
      refine Runs.action ⟨touches_of_none rfl, _, _, slotCount rest, rfl, ?_, rfl⟩ ?_
      · rw [UInt16.toNat_ofNat', UInt16.toNat_ofNat', Nat.mod_eq_of_lt (by omega),
          Nat.mod_eq_of_lt (by omega), Stance.plain.injEq]
        omega
      · rw [UInt16.toNat_ofNat', Nat.mod_eq_of_lt (by omega)]
        exact after
  | leave kinds =>
    obtain ⟨rfl, rest, rfl⟩ := flow
    have narrow : (UInt16.ofNat (returnSlots context.signature)).toNat =
        returnSlots unit.signature := by
      have := returnSlots_le context.signature
      rw [UInt16.toNat_ofNat', Nat.mod_eq_of_lt (by omega), fitting.signature]
    rw [holding_append, slotCount_reverse]
    simp only [Lowers] at lowers
    have leaves : ∀ stance, stance = Stance.returning context.signature (slotCount rest) →
        Runs unit lands next
          (plain [.leave (UInt16.ofNat (returnSlots context.signature))]) stance := by
      rintro _ rfl
      rw [← fitting.signature] at narrow ⊢
      exact Runs.stop ⟨narrow, _, rfl, rfl⟩ rfl
    split at lowers
    · rename_i several
      obtain ⟨signature, pooled, rfl⟩ := lowers
      refine Runs.action ⟨_, _, pooled, rfl, rfl⟩ (leaves _ ?_)
      rw [Stance.returning, if_pos several]
      rfl
    · rename_i several
      rw [lowers]
      refine leaves _ ?_
      rw [Stance.returning, if_neg several]
      rfl
  | trap =>
    rw [show segment = _ from lowers]
    exact Runs.stop rfl rfl
  | drop kind =>
    obtain ⟨rest, rfl, goes⟩ := flow
    rw [show segment = _ from lowers]
    refine Runs.action ⟨touches_of_none rfl, _, 0, slotCount rest, rfl, ?_, rfl⟩
      (going _ goes)
    rw [holding_cons, slots_widthOf]
  | select kind =>
    obtain ⟨rest, rfl, goes⟩ := flow
    rw [show segment = _ from lowers]
    have after := going _ goes
    rw [holding_cons] at after
    refine Runs.action ⟨touches_of_none rfl, _, _, slotCount rest, rfl, ?_, rfl⟩ ?_
    · rw [slots_widthOf, holding_cons, slotCount_cons, slotCount_cons, Stance.plain.injEq,
        slots_i32]
      omega
    · rw [slots_widthOf]
      exact after
  | localTee _ kind =>
    obtain ⟨found, rest, rfl, goes⟩ := flow
    obtain ⟨_, _, entry, rfl⟩ := lowers
    obtain ⟨_, entry', inside⟩ := fitting.local_lt found
    rw [entry, Option.some.injEq, Prod.mk.injEq] at entry'
    obtain ⟨rfl, rfl⟩ := entry'
    have after := going _ goes
    rw [holding_cons] at after ⊢
    refine Runs.action ⟨touches_of_none rfl, _, _, slotCount rest, rfl, ?_, rfl⟩ ?_
    · rw [slots_widthOf]
    · rw [slots_widthOf, Nat.two_mul, ← Nat.add_assoc]
      exact Runs.action (moves_store inside) after
  | call =>
    obtain ⟨callee, rest, typed, rfl, goes⟩ := flow
    obtain ⟨type, signature, typed', pooled, rfl⟩ := lowers
    cases typed.symm.trans typed'
    have after := going _ goes
    rw [holding_append, slotCount_reverse] at after ⊢
    rw [plain, List.map_append, List.map_append, List.append_assoc]
    refine Runs.append (runs_boxing pooled ?_)
    exact Runs.action rfl (Runs.action ⟨callee, _, pooled, rfl, rfl⟩ (runs_unboxing pooled after))
  | callIndirect =>
    obtain ⟨callee, kind, rest, typed, _, _, rfl, goes⟩ := flow
    obtain ⟨type, signature, _, typed', pooled, boxed, rfl⟩ := lowers
    cases typed.symm.trans typed'
    have after := going _ goes
    rw [holding_append, slotCount_reverse] at after
    rw [holding_cons, slots_i32, slotCount_append, slotCount_reverse, plain, List.map_append,
      List.map_append, List.append_assoc, Nat.add_comm (slotCount callee.params)]
    refine Runs.append (runs_boxes fitting pooled boxed ?_)
    exact Runs.action rfl (Runs.action ⟨callee, _, pooled, rfl, rfl⟩ (runs_unboxing pooled after))
  | operator operator =>
    obtain ⟨_, params, _, rest, effect, rfl, goes⟩ := flow
    obtain ⟨_, known, rfl⟩ := lowers
    exact runs_operator fitting effect known (going _ goes)

theorem runs_paramStores {count : Nat} (few : count ≤ locals.length) (goes : next (.plain 0)) :
    Runs unit lands next (plain (paramStores context count))
      (.plain (slotCount (locals.take count))) := by
  induction count with
  | zero => exact goes
  | succ count ih =>
    have found : locals[count]? = some _ := List.getElem?_eq_getElem (by omega)
    obtain ⟨_, entry, inside⟩ := fitting.local_lt found
    have single : ∀ kind, slotCount [kind] = kind.slots := by
      simp [slotCount]
    rw [paramStores, entry, List.take_add_one, found, Option.toList_some, slotCount_append, single]
    exact Runs.action (moves_store inside) (ih (by omega))

end

theorem runs_nullStores
    (inside : ∀ entry ∈ entries, entry.2.toNat + entry.1.slots ≤ unit.localSlots)
    (goes : next (.plain depth)) :
    Runs unit lands next (plain (nullStores entries)) (.plain depth) := by
  induction entries with
  | nil => exact goes
  | cons entry entries ih =>
    have rest := ih fun other member => inside other (List.mem_cons_of_mem _ member)
    rw [nullStores, List.flatMap_cons, plain, List.map_append]
    refine Runs.append ?_
    split
    · rename_i reference
      have double := slots_of_isRef reference
      have store := inside entry List.mem_cons_self
      have moves := @moves_store unit entry.1 entry.2 depth store
      rw [double, widthOf, if_neg (by omega)] at moves
      refine Runs.action ⟨touches_of_none rfl, 0, 2, depth, rfl, rfl, rfl⟩ ?_
      exact Runs.action moves rest
    · exact rest

/-- The prologue takes what a unit is entered with to no operands. -/
theorem runs_prologue (fitting : Fitting context locals scratch unit)
    (split : locals = context.signature.params ++ declared)
    (prologue : Prologue context unit.signatures actions) (goes : next (holding [])) :
    Runs unit lands next (plain actions) (.entry context.signature) := by
  obtain ⟨_, unpacks, rfl⟩ := prologue
  have defaults : Runs unit lands next
      (plain (nullStores (context.locals.toList.drop context.signature.params.length)))
        (.plain 0) := by
    refine runs_nullStores ?_ goes
    intro entry member
    obtain ⟨_, found⟩ := List.mem_iff_getElem?.mp (List.mem_of_mem_drop member)
    have below := lt_length found
    rw [Array.length_toList, fitting.layout.size] at below
    obtain ⟨_, same, fits⟩ := fitting.local_lt (List.getElem?_eq_getElem below)
    rw [Array.getElem?_toList, same] at found
    cases found
    exact fits
  rw [plain, List.map_append]
  refine Runs.append ?_
  unfold Unpacks at unpacks
  unfold Stance.entry
  cases convention : Convention.of context.signature with
  | slots =>
    rw [convention] at unpacks
    rw [unpacks]
    exact defaults
  | boxed =>
    rw [convention] at unpacks
    obtain ⟨signature, pooled, rfl⟩ := unpacks
    have large : context.signature.paramSlots > maxParamSlots := by
      unfold Convention.of at convention
      split at convention
      · assumption
      · cases convention
    have taken : locals.take context.signature.params.length = context.signature.params := by
      rw [split, List.take_left]
    have whole : slotCount (locals.take context.signature.params.length) =
        context.signature.paramSlots := by
      rw [taken, FunctionType.paramSlots]
    have room : 0 < unit.localSlots := by
      have := slotCount_take_le locals context.signature.params.length
      have := fitting.layout.slots
      have := fitting.frameSlots_le
      omega
    refine Runs.action ⟨room, rfl, rfl⟩ (Runs.action ⟨_, 0, pooled, rfl, rfl⟩ ?_)
    simp only [LoadedUnit.parcelSlots, Nat.zero_add]
    rw [← whole]
    refine runs_paramStores fitting ?_ defaults
    rw [split, List.length_append]
    omega

end Segments

/-! ## The whole unit -/

/-- What a frame holds in front of each instruction of a segment, if control reaches it. -/
structure Annotates (unit : LoadedUnit) (lands : Nat → Stance → Prop) (next : Stance → Prop)
    (segment : Segment) (entry : Option Stance) (held : List (Option Stance)) : Prop where
  length : held.length = segment.length
  first : ∀ {stance : Stance}, entry = some stance →
    held[0]? = some (some stance) ∨ segment = [] ∧ next stance
  flow : ∀ {offset : Nat} {instr : Machine.Instruction Nat} {stance : Stance},
    segment[offset]? = some instr → held[offset]? = some (some stance) →
    ∃ after, Steps unit stance after instr ∧
      (∀ name ∈ instr.targets, lands name after) ∧
      (instr.terminates = false →
        held[offset + 1]? = some (some after) ∨ offset + 1 = segment.length ∧ next after)

theorem annotates_none (unit : LoadedUnit) (lands : Nat → Stance → Prop) (next : Stance → Prop)
    (segment : Segment) : Annotates unit lands next segment none (segment.map fun _ => none) := by
  refine ⟨List.length_map _, (nomatch ·), fun _ held => ?_⟩
  rw [List.getElem?_map, Option.map_eq_some_iff] at held
  obtain ⟨_, _, absurd⟩ := held
  cases absurd

theorem Runs.annotates {segment : Segment} (runs : Runs unit lands next segment stance) :
    ∃ held, Annotates unit lands next segment (some stance) held := by
  induction segment generalizing stance with
  | nil =>
    refine ⟨[], rfl, fun same => ?_, fun absurd => nomatch absurd⟩
    cases same
    exact .inr ⟨rfl, runs⟩
  | cons instr rest ih =>
    obtain ⟨after, steps, jumps, goes⟩ := runs
    have behind : ∃ held, Annotates unit lands next rest
        (if instr.terminates then none else some after) held := by
      by_cases stops : instr.terminates
      · rw [if_pos stops]
        exact ⟨_, annotates_none unit lands next rest⟩
      · rw [if_neg stops]
        exact ih (goes (by simpa using stops))
    obtain ⟨held, length, first, flow⟩ := behind
    refine ⟨some stance :: held, congrArg Nat.succ length, ?_, ?_⟩
    · intro other same
      cases same
      exact .inl rfl
    · intro offset other here found holds
      cases offset with
      | zero =>
        cases found
        cases holds
        refine ⟨after, steps, jumps, fun goes => ?_⟩
        rcases first (by rw [if_neg (by simp [goes])]) with here | ⟨empty, exit⟩
        · exact .inl here
        · exact .inr ⟨by simp [empty], exit⟩
      | succ offset =>
        obtain ⟨later, steps, jumps, goes⟩ := flow found holds
        refine ⟨later, steps, jumps, fun on => ?_⟩
        rcases goes on with here | ⟨last, exit⟩
        · exact .inl here
        · exact .inr ⟨congrArg Nat.succ last, exit⟩

namespace Assembly

variable {context : Context} {code : List Normalized} {unit : LoadedUnit}

def part (assembly : Assembly context code unit) : Nat → Segment
  | 0 => plain assembly.first
  | place + 1 => (assembly.segments[place]?).getD []

def start (assembly : Assembly context code unit) (place : Nat) : Nat :=
  assembly.first.length + (assembly.segments.take place).flatten.length

def partStart (assembly : Assembly context code unit) (index : Nat) : Nat :=
  ((List.range index).flatMap assembly.part).length

variable (assembly : Assembly context code unit)

include assembly

theorem flatMap_part (place : Nat) : (List.range (place + 1)).flatMap assembly.part =
      plain assembly.first ++ (assembly.segments.take place).flatten := by
  induction place with
  | zero => simp [part]
  | succ place ih =>
    rw [flatMap_range_succ, ih, List.take_add_one, List.flatten_append, part]
    cases assembly.segments[place]? <;> simp

theorem start_eq (place : Nat) : assembly.start place = assembly.partStart (place + 1) := by
  rw [partStart, flatMap_part, List.length_append, start, plain, List.length_map]

theorem partStart_succ (index : Nat) :
    assembly.partStart (index + 1) = assembly.partStart index + (assembly.part index).length := by
  rw [partStart, flatMap_range_succ, List.length_append, partStart]

theorem code_get (inside : index ≤ code.length) (within : offset < (assembly.part index).length) :
    unit.code[assembly.partStart index + offset]? =
      (assembly.part index)[offset]?.map (Machine.Instruction.retarget assembly.target) := by
  have whole := flatMap_part assembly code.length
  rw [List.take_of_length_le (Nat.le_of_eq assembly.length)] at whole
  rw [← Array.getElem?_toList, assembly.code_eq, ← whole, List.getElem?_map, partStart]
  have found := getElem?_flatMap_range assembly.part [] (Nat.lt_succ_of_le inside) within
  rw [List.append_nil] at found
  rw [found]

theorem jumps_of_part (member : lowered ∈ assembly.part index) (jumps : name ∈ lowered.targets) :
    ∃ instr ∈ code, name ∈ instr.targets := by
  cases index with
  | zero =>
    obtain ⟨_, _, rfl⟩ := List.mem_map.mp member
    cases jumps
  | succ place =>
    rw [part] at member
    cases found : assembly.segments[place]? with
    | none =>
      rw [found] at member
      cases member
    | some =>
      rw [found] at member
      have below := lt_length found
      rw [assembly.length] at below
      have here := List.getElem?_eq_getElem below
      exact ⟨_, List.mem_of_getElem? here,
        ((assembly.lowers here found).targets lowered member).2 name jumps⟩

end Assembly

theorem steps_retarget {instr : Machine.Instruction Nat} (target : Nat → Nat) :
    Steps unit before after (instr.retarget target) ↔ Steps unit before after instr := by
  cases instr with
  | plain => exact Iff.rfl
  | jump condition => cases condition <;> exact Iff.rfl
  | switch => simp [Machine.Instruction.retarget, Machine.Steps]

theorem terminates_retarget {instr : Machine.Instruction Nat} (target : Nat → Nat) :
    (instr.retarget target).terminates = instr.terminates := by
  cases instr <;> rfl

section Tracked

variable {context : Context} {code : List Normalized} {unit : LoadedUnit}
  {locals : List ValueKind} {kinds : Nat → Option (List ValueKind)}

def partEntry (context : Context) (kinds : Nat → Option (List ValueKind)) : Nat → Option Stance
  | 0 => some (.entry context.signature)
  | place + 1 => (kinds place).map holding

section

variable (typed : CodeTyped context.source context.signature locals code kinds)

include typed

theorem le_of_partEntry (known : partEntry context kinds index = some stance) :
    index ≤ code.length := by
  cases index with
  | zero => exact Nat.zero_le _
  | succ =>
    obtain ⟨_, known, _⟩ := Option.map_eq_some_iff.mp known
    obtain ⟨_, found, _⟩ := typed.flow known
    exact lt_length found

end

def LandsAt (code : List Normalized) (kinds : Nat → Option (List ValueKind)) (name : Nat)
    (stance : Stance) : Prop :=
  ∃ place stack, code[place]? = some (.label name) ∧ kinds place = some stack ∧
    stance = holding stack

variable (assembly : Assembly context code unit)
  (fitting : Fitting context locals assembly.scratch unit)
  (split : locals = context.signature.params ++ declared)
  (typed : CodeTyped context.source context.signature locals code kinds)

include assembly fitting split typed

theorem exists_annotates (index : Nat) : ∃ held, Annotates unit (LandsAt code kinds)
      (fun stance => partEntry context kinds (index + 1) = some stance) (assembly.part index)
      (partEntry context kinds index) held := by
  cases known : partEntry context kinds index with
  | none => exact ⟨_, annotates_none _ _ _ _⟩
  | some stance =>
    refine Runs.annotates ?_
    cases index with
    | zero =>
      cases known
      refine runs_prologue fitting split assembly.prologue ?_
      rw [partEntry, typed.start]
      rfl
    | succ =>
      obtain ⟨_, stands, rfl⟩ := Option.map_eq_some_iff.mp known
      obtain ⟨_, found, flow⟩ := typed.flow stands
      have below := lt_length found
      rw [← assembly.length] at below
      have listed := List.getElem?_eq_getElem below
      rw [Assembly.part, listed, Option.getD_some]
      refine runs_of_flow fitting flow (assembly.lowers found listed) ?_ ?_
      · rintro _ kinds ⟨target, labelled, there⟩
        exact ⟨target, kinds, labelled, there, rfl⟩
      · intro kinds on
        rw [partEntry, on]
        rfl

/-- A unit assembled from typed code holds at the start of each segment the slots of the kinds in
front of its instruction. -/
theorem exists_tracked
    (once : ∀ instr ∈ code, ∀ name ∈ instr.targets, code.count (.label name) = 1) :
    ∃ stances, Tracked unit stances ∧ ∀ {place stack},
      kinds place = some stack → stances (assembly.start place) = some (holding stack) := by
  obtain ⟨held, annotates⟩ := Classical.axiomOfChoice
    (exists_annotates assembly fitting split typed)
  let stances : Nat → Option Stance := fun index =>
    (((List.range (code.length + 1)).flatMap held)[index]?).join
  have starts : ∀ index, assembly.partStart index = ((List.range index).flatMap held).length :=
    fun index => (length_flatMap_range_eq _ _ index fun other _ => (annotates other).length).symm
  have at_part : ∀ {index offset}, index ≤ code.length →
      offset < (assembly.part index).length →
      stances (assembly.partStart index + offset) = ((held index)[offset]?).join := by
    intro index offset inside within
    have found := getElem?_flatMap_range held [] (Nat.lt_succ_of_le inside)
      (by rw [(annotates index).length]; exact within : offset < (held index).length)
    rw [List.append_nil] at found
    simp only [stances]
    rw [starts, found]
  -- a part without code has what the next one is entered with, so the induction goes backwards
  have entered : ∀ {index stance},
      partEntry context kinds index = some stance →
      stances (assembly.partStart index) = some stance := by
    intro index stance known
    induction left : code.length - index generalizing index with
    | zero | succ left ih =>
      have inside := le_of_partEntry typed known
      rcases (annotates index).first known with here | ⟨empty, next⟩
      · have within := lt_length here
        rw [(annotates index).length] at within
        have found := at_part inside within
        rw [here] at found
        exact found
      · have further := le_of_partEntry typed next
        have same : assembly.partStart (index + 1) = assembly.partStart index := by
          rw [assembly.partStart_succ, empty]
          rfl
        first
        | omega
        | (rw [← same]
           exact ih next (by omega))
  have landing : ∀ {name stance}, LandsAt code kinds name stance →
      code.count (.label name) = 1 → stances (assembly.target name) = some stance := by
    rintro name stance ⟨place, stack, labelled, known, rfl⟩ counted
    rw [assembly.target_eq labelled counted]
    refine Eq.trans (congrArg stances (assembly.start_eq place)) (entered ?_)
    rw [partEntry, known]
    rfl
  refine ⟨stances, ⟨?_, ?_⟩, ?_⟩
  · rw [assembly.signature]
    have first : partEntry context kinds 0 = some (.entry context.signature) := rfl
    simpa [Assembly.partStart] using entered first
  · intro index stance known
    have listed := Option.join_eq_some_iff.mp known
    have inside := lt_length listed
    obtain ⟨part, offset, _, within, rfl⟩ := exists_of_lt_flatMap_range held _ index inside
    rw [← starts] at known ⊢
    rw [(annotates part).length] at within
    rw [at_part (by omega) within] at known
    have instructionHere := List.getElem?_eq_getElem within
    obtain ⟨after, steps, jumps, goes⟩ :=
      (annotates part).flow instructionHere (Option.join_eq_some_iff.mp known)
    refine ⟨_, after, by rw [assembly.code_get (by omega) within, instructionHere]; rfl,
      (steps_retarget _).mpr steps, ?_, ?_⟩
    · intro target member
      rw [Machine.Instruction.targets_retarget] at member
      obtain ⟨name, named, rfl⟩ := List.mem_map.mp member
      obtain ⟨instr, listed, jumping⟩ :=
        assembly.jumps_of_part (List.mem_of_getElem? instructionHere) named
      exact landing (jumps name named) (once instr listed name jumping)
    · intro on
      rw [terminates_retarget] at on
      rcases goes on with here | ⟨last, next⟩
      · have further := lt_length here
        rw [(annotates part).length] at further
        rw [Nat.add_assoc, at_part (by omega) further, here]
        rfl
      · rw [Nat.add_assoc, last, ← assembly.partStart_succ]
        exact entered next
  · intro place stack known
    rw [assembly.start_eq]
    refine entered ?_
    rw [partEntry, known]
    rfl

end Tracked

end TwinEngine.Lowering
