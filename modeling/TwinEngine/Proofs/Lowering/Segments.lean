import TwinEngine.Lowering
import TwinEngine.Proofs.Machine.Emitting

/-!
Contract: the machine code of each normalized instruction.

Owns: the segments that normalized instructions become, the refusals that lowering may end with, and
that lowering appends exactly a segment or refuses.

Does not own: what segments do to the depth of the operand stack (`Proofs.Lowering.Depths`).

Jump operands are names of labels here. Segments refer to the signature pool and to the scratch slot
as they are at the end, which is no matter: both only grow.
-/

namespace TwinEngine.Lowering

open Machine hiding Instruction
open Lowering
open UInt32 (ofNat)

/-! ## Segments -/

/-- Machine code with names in place of labels. -/
abbrev Segment := List (Machine.Instruction Nat)

def plain (actions : List Action) : Segment := actions.map .plain

/-- An instruction, after a poll of the interrupt flag if its jump goes backwards. -/
def Polled (segment : Segment) (instr : Machine.Instruction Nat) : Prop :=
  segment = [instr] ∨ segment = [.plain .checkInterrupt, instr]

def pollIf (backwards : Bool) (instr : Machine.Instruction Nat) : Segment :=
  if backwards then [.plain .checkInterrupt, instr] else [instr]

theorem polled_pollIf (backwards : Bool) (instr : Machine.Instruction Nat) :
    Polled (pollIf backwards instr) instr := by
  cases backwards with
  | false => exact .inl rfl
  | true => exact .inr rfl

def Pooled (signatures : Array FunctionType) (signature : UInt16) (type : FunctionType) : Prop :=
  signatures[signature.toNat]? = some type

/-- What spreads the boxed results of a call. -/
def unboxing (type : FunctionType) (signature : UInt16) : List Action :=
  if type.results.length > 1 then [.unbox .results signature] else []

def boxing (type : FunctionType) (signature : UInt16) : List Action :=
  match Convention.of type with
  | .slots => []
  | .boxed => [.box .params signature]

/-- What boxes the arguments of a call through a table, with the element index put aside. -/
def Boxes (scratch : Option UInt16) (type : FunctionType) (signature : UInt16)
    (actions : List Action) : Prop :=
  match Convention.of type with
  | .slots => actions = []
  | .boxed => ∃ slot, scratch = some slot ∧
      actions = [.store .one slot, .box .params signature, .load .one slot]

/-- The actions of a load. A static offset that reaches no memory leaves only the trap. -/
def loadActions (kind : LoadKind) (offset : Nat) : List Action :=
  if offset ≤ maxStaticOffset then [.memLoad kind (ofNat offset)]
  else [.pop .one, .trap .memoryOutOfBounds]

def storeActions (kind : StoreKind) (offset : Nat) : List Action :=
  if offset ≤ maxStaticOffset then [.memStore kind (ofNat offset)]
  else [.pop (widthOf kind.operand), .pop .one, .trap .memoryOutOfBounds]

def operatorActions (context : Context) : Operator → Option (List Action)
  | .localGet index => context.locals[index]?.map fun (kind, slot) => [.load (widthOf kind) slot]
  | .localSet index => context.locals[index]?.map fun (kind, slot) => [.store (widthOf kind) slot]
  | .globalGet index => context.source.globals[index]?.map fun global =>
    [.globalGet (widthOf global.kind) (ofNat index)]
  | .globalSet index => context.source.globals[index]?.map fun global =>
    [.globalSet (widthOf global.kind) (ofNat index)]
  | .load kind offset => some (loadActions kind offset)
  | .store kind offset => some (storeActions kind offset)
  | .memorySize => some [.memorySize]
  | .memoryGrow => some [.memoryGrow]
  | .memoryFill => some [.memoryFill]
  | .memoryCopy => some [.memoryCopy]
  | .memoryInit segment => some [.memoryInit (ofNat segment)]
  | .dataDrop segment => some [.dataDrop (ofNat segment)]
  | .tableGet table => some [.tableGet (ofNat table)]
  | .tableSet table => some [.tableSet (ofNat table)]
  | .tableSize table => some [.tableSize (ofNat table)]
  | .tableGrow table => some [.tableGrow (ofNat table)]
  | .tableFill table => some [.tableFill (ofNat table)]
  | .tableCopy target source => some [.tableCopy (ofNat target) (ofNat source)]
  | .tableInit table segment => some [.tableInit (ofNat segment) (ofNat table)]
  | .elementDrop segment => some [.elementDrop (ofNat segment)]
  | .constant (.i32 bits) | .constant (.f32 bits) => some [.const32 bits]
  | .constant (.i64 bits) | .constant (.f64 bits) => some [.const64 bits]
  | .refNull _ => some [.const64 nullPayload]
  | .refIsNull => some [.refIsNull]
  | .refFunc function => some [.refFunc (ofNat function)]
  | .numeric numeric => some [.numeric numeric]
  | _ => none

section Named

variable (context : Context) (index : Nat)

theorem operatorActions_localGet : operatorActions context (.localGet index) =
    context.locals[index]?.map fun (kind, slot) => [.load (widthOf kind) slot] := rfl

theorem operatorActions_localSet : operatorActions context (.localSet index) =
    context.locals[index]?.map fun (kind, slot) => [.store (widthOf kind) slot] := rfl

theorem operatorActions_globalGet : operatorActions context (.globalGet index) =
    context.source.globals[index]?.map fun global =>
      [.globalGet (widthOf global.kind) (ofNat index)] := rfl

theorem operatorActions_globalSet : operatorActions context (.globalSet index) =
    context.source.globals[index]?.map fun global =>
      [.globalSet (widthOf global.kind) (ofNat index)] := rfl

end Named

/-- The code of a normalized instruction, with the signature pool and the scratch slot of its
unit. -/
def Lowers (context : Context) (signatures : Array FunctionType) (scratch : Option UInt16) :
    Normalized → Segment → Prop
  | .label _, segment => segment = []
  | .goto target, segment => Polled segment (.jump .always target)
  | .ifZero target, segment => Polled segment (.jump .zero target)
  | .ifNonzero target, segment => Polled segment (.jump .nonzero target)
  | .switch targets, segment => targets.length ≤ 65535 ∧ Polled segment (.switch targets)
  | .dropKeep drop keep, segment =>
    if ValueKind.slotCount drop = 0 then segment = []
    else ValueKind.slotCount drop ≤ 65535 ∧ ValueKind.slotCount keep ≤ 65535 ∧
      segment = plain [.dropKeep (UInt16.ofNat (ValueKind.slotCount drop))
        (UInt16.ofNat (ValueKind.slotCount keep))]
  | .leave _, segment =>
    let leaving : Action := .leave (UInt16.ofNat (returnSlots context.signature))
    if context.signature.results.length > 1 then
      ∃ signature, Pooled signatures signature context.signature ∧
        segment = plain [.box .results signature, leaving]
    else segment = plain [leaving]
  | .trap, segment => segment = plain [.trap .unreachable]
  | .drop kind, segment => segment = plain [.pop (widthOf kind)]
  | .select kind, segment => segment = plain [.select (widthOf kind)]
  | .localTee index kind, segment =>
    ∃ own slot, context.locals[index]? = some (own, slot) ∧
      segment = plain [.dup (widthOf kind), .store (widthOf own) slot]
  | .call function, segment =>
    ∃ type signature, context.source.functionType function = some type ∧
      Pooled signatures signature type ∧
      segment = plain (boxing type signature ++
        [.checkInterrupt, .call .unit (ofNat function) signature] ++
        unboxing type signature)
  | .callIndirect typeIndex table, segment =>
    ∃ type signature boxes, context.source.types[typeIndex]? = some type ∧
      Pooled signatures signature type ∧ Boxes scratch type signature boxes ∧
      segment = plain (boxes ++
        [.checkInterrupt, .callIndirect (ofNat typeIndex) (ofNat table) signature] ++
        unboxing type signature)
  | .operator operator, segment =>
    ∃ actions, operatorActions context operator = some actions ∧ segment = plain actions

/-- What lowering may refuse. -/
inductive Refusal : Error → Prop
  | localSlots (function slots : Nat) : Refusal (.unsupported (.localSlots function slots))
  | wideUnwind : Refusal (.unsupported .wideUnwind)
  | switchTargets (count : Nat) : Refusal (.unsupported (.switchTargets count))
  | signaturePool : Refusal (.unsupported .signaturePool)

/-- An instruction refers to nothing that the function does not have. -/
def Lowerable (context : Context) : Normalized → Prop
  | .localTee index _ => index < context.locals.size
  | .call function => (context.source.functionType function).isSome
  | .callIndirect typeIndex _ => typeIndex < context.source.types.size
  | .operator operator => (operatorActions context operator).isSome
  | _ => True

/-! ## Units under construction -/

/-- What is in the signature pool stays there, and so does the scratch slot. -/
structure Extends (before after : Emitter) : Prop where
  function : after.function = before.function
  signatures : ∀ {index : Nat} {type : FunctionType},
    before.signatures[index]? = some type → after.signatures[index]? = some type
  scratch : ∀ {slot : UInt16}, before.scratch = some slot → after.scratch = some slot

theorem Extends.refl (emitter : Emitter) : Extends emitter emitter :=
  ⟨rfl, fun found => found, fun found => found⟩

theorem Extends.trans (left : Extends first second) (right : Extends second third) :
    Extends first third :=
  ⟨right.function.trans left.function, fun found => right.signatures (left.signatures found),
    fun found => right.scratch (left.scratch found)⟩

def FrameSlots (frameSlots localSlots : Nat) : Option UInt16 → Prop
  | none => localSlots = frameSlots
  | some slot => slot.toNat = frameSlots ∧ localSlots = frameSlots + 1

/-- The unit of a function under construction. -/
structure Building (frameSlots : Nat) (lowered : Segment) (marks : List (Nat × Nat))
    (emitter : Emitter) : Prop where
  represents : Represents lowered marks emitter
  pool : emitter.signatures.size ≤ 65536
  slots : FrameSlots frameSlots emitter.localSlots emitter.scratch

/-- The same unit but for its code and labels. -/
structure SameFrame (before after : Emitter) : Prop where
  function : after.function = before.function
  signatures : after.signatures = before.signatures
  localSlots : after.localSlots = before.localSlots
  scratch : after.scratch = before.scratch

theorem SameFrame.extends (same : SameFrame before after) : Extends before after := by
  refine ⟨same.function, ?_, ?_⟩
  · intro _ _
    rw [same.signatures]
    exact id
  · intro _
    rw [same.scratch]
    exact id

theorem sameFrame_labelFor (emitter : Emitter) (name : Nat) :
    SameFrame emitter (emitter.labelFor name).2 := by
  unfold Emitter.labelFor
  split
  · exact ⟨rfl, rfl, rfl, rfl⟩
  · exact ⟨rfl, rfl, rfl, rfl⟩

theorem SameFrame.trans (left : SameFrame first second) (right : SameFrame second third) :
    SameFrame first third :=
  ⟨right.function.trans left.function, right.signatures.trans left.signatures,
    right.localSlots.trans left.localSlots, right.scratch.trans left.scratch⟩

theorem sameFrame_labelsFor (emitter : Emitter) (names : List Nat) :
    SameFrame emitter (emitter.labelsFor names).2 := by
  induction names generalizing emitter with
  | nil => exact ⟨rfl, rfl, rfl, rfl⟩
  | cons name names ih => exact (sameFrame_labelFor emitter name).trans (ih _)

section Represents

variable {lowered : Segment} {marks : List (Nat × Nat)} {emitter : Emitter}

theorem represents_jump (represents : Represents lowered marks emitter) (condition : Condition)
    (name : Nat) :
    Represents (lowered ++ pollIf (marks.lookup name).isSome (.jump condition name)) marks
      (jump emitter condition name) := by
  have named := represents.labelFor name
  have known := Represents.names_labelFor emitter name
  have own : (emitter.labelFor name).2.labelOf name = (emitter.labelFor name).1 := by
    rw [Emitter.labelOf, known]
    rfl
  have jumps : ∀ other ∈ (Machine.Instruction.jump condition name).targets,
      ((emitter.labelFor name).2.names.lookup other).isSome := by
    intro other member
    rw [List.mem_singleton.mp member, known]
    rfl
  unfold jump pollIf
  dsimp only
  rw [named.isDefined_eq known, ← own]
  split
  · have polled := (named.emit .checkInterrupt).push (.jump condition name) jumps
    rwa [List.append_assoc] at polled
  · exact named.push (.jump condition name) jumps

/-- A unit with a switch over names appended to it. -/
def switched (emitter : Emitter) (names : List Nat) : Emitter :=
  let (labels, emitter) := emitter.labelsFor names
  (if labels.any emitter.isDefined then emitter.emit .checkInterrupt else emitter).push
    (.switch (labels.map .label))

theorem sameFrame_jump (emitter : Emitter) (condition : Condition) (name : Nat) :
    SameFrame emitter (jump emitter condition name) := by
  refine (sameFrame_labelFor emitter name).trans ?_
  unfold jump
  dsimp only
  split <;> exact ⟨rfl, rfl, rfl, rfl⟩

theorem sameFrame_switched (emitter : Emitter) (names : List Nat) :
    SameFrame emitter (switched emitter names) := by
  refine (sameFrame_labelsFor emitter names).trans ?_
  unfold switched
  dsimp only
  split <;> exact ⟨rfl, rfl, rfl, rfl⟩

theorem length_labelsFor (emitter : Emitter) (names : List Nat) :
    (emitter.labelsFor names).1.length = names.length := by
  induction names generalizing emitter with
  | nil => rfl
  | cons _ names ih => exact congrArg Nat.succ (ih _)

theorem switch_eq (emitter : Emitter) (names : List Nat) : switch emitter names =
      if names.length > 65535 then .error (.unsupported (.switchTargets names.length))
      else .ok (switched emitter names) := by
  unfold switch Emitter.switch
  dsimp only
  rw [length_labelsFor]
  rfl

theorem represents_switched (represents : Represents lowered marks emitter) (names : List Nat) :
    Represents (lowered ++ pollIf (names.any fun name => (marks.lookup name).isSome)
      (.switch names)) marks (switched emitter names) := by
  obtain ⟨named, _, known, labels⟩ := represents.labelsFor names
  have operands : (emitter.labelsFor names).1.map JumpTarget.label =
      names.map fun name => .label ((emitter.labelsFor names).2.labelOf name) := by
    rw [labels, List.map_map]
    rfl
  have defined : (emitter.labelsFor names).1.any (emitter.labelsFor names).2.isDefined =
      names.any fun name => (marks.lookup name).isSome := by
    rw [labels, List.any_map, Bool.eq_iff_iff, List.any_eq_true, List.any_eq_true]
    refine exists_congr fun name => and_congr_right fun member => ?_
    obtain ⟨label, found⟩ := Option.isSome_iff_exists.mp (known name member)
    rw [Function.comp_apply, Emitter.labelOf, found, Option.getD_some, named.isDefined_eq found]
  unfold switched pollIf
  dsimp only
  rw [defined, operands]
  split
  · have polled := (named.emit .checkInterrupt).push (.switch names) known
    rwa [List.append_assoc] at polled
  · exact named.push (.switch names) known

end Represents

section Building

variable {frameSlots : Nat} {lowered : Segment} {marks : List (Nat × Nat)} {emitter : Emitter}

/-- Changes to code and labels only. -/
theorem Building.reframe (building : Building frameSlots lowered marks emitter)
    (same : SameFrame emitter after) (represents : Represents code marks' after) :
    Building frameSlots code marks' after := by
  refine ⟨represents, by rw [same.signatures]; exact building.pool, ?_⟩
  rw [same.scratch, same.localSlots]
  exact building.slots

theorem Building.reframe_through (building : Building frameSlots lowered marks emitter)
    (first : SameFrame emitter middle) (second : SameFrame middle after)
    (represents : Represents code marks' after) :
    Building frameSlots code marks' after ∧ SameFrame emitter after :=
  ⟨building.reframe (first.trans second) represents, first.trans second⟩

def emitAll (emitter : Emitter) (actions : List Action) : Emitter :=
  actions.foldl Emitter.emit emitter

theorem sameFrame_emitAll (emitter : Emitter) (actions : List Action) :
    SameFrame emitter (emitAll emitter actions) := by
  induction actions generalizing emitter with
  | nil => exact ⟨rfl, rfl, rfl, rfl⟩
  | cons action actions ih =>
    have first : SameFrame emitter (emitter.emit action) := ⟨rfl, rfl, rfl, rfl⟩
    exact first.trans (ih (emitter.emit action))

variable (building : Building frameSlots lowered marks emitter)

include building

theorem Building.emitAll (actions : List Action) :
    Building frameSlots (lowered ++ plain actions) marks (emitAll emitter actions) := by
  refine building.reframe (sameFrame_emitAll emitter actions) ?_
  have represents := building.represents
  clear building
  induction actions generalizing emitter lowered with
  | nil =>
    rw [plain, List.map_nil, List.append_nil]
    exact represents
  | cons action actions ih =>
    have rest := ih (represents.emit action)
    rw [List.append_assoc] at rest
    exact rest

theorem Building.signature (type : FunctionType) :
    (∃ signature after, emitter.signature type = .ok (signature, after) ∧
      Building frameSlots lowered marks after ∧ Extends emitter after ∧
      after.localSlots = emitter.localSlots ∧ after.scratch = emitter.scratch ∧
      Pooled after.signatures signature type) ∨
    emitter.signature type = .error (.unsupported .signaturePool) := by
  unfold Emitter.signature
  cases found : emitter.signatures.idxOf? type with
  | some index =>
    have listed : emitter.signatures[index]? = some type := by
      rw [Array.idxOf?_eq_map_finIdxOf?_val, Option.map_eq_some_iff] at found
      obtain ⟨place, found, rfl⟩ := found
      have same := (Array.finIdxOf?_eq_some_iff.mp found).1
      exact (Array.getElem?_eq_getElem place.isLt).trans (congrArg some same)
    have inside := (Array.getElem?_eq_some_iff.mp listed).1
    have := building.pool
    have small : (UInt16.ofNat index).toNat = index := by
      rw [UInt16.toNat_ofNat']
      omega
    exact .inl ⟨_, emitter, rfl, building, Extends.refl emitter, rfl, rfl,
      by rw [Pooled, small]; exact listed⟩
  | none =>
    by_cases full : emitter.signatures.size > 65535
    · exact .inr (if_pos full)
    · have small : (UInt16.ofNat emitter.signatures.size).toNat = emitter.signatures.size := by
        rw [UInt16.toNat_ofNat']
        omega
      refine .inl ⟨_, _, if_neg full,
        ⟨building.represents.congr rfl rfl rfl rfl rfl, ?_, building.slots⟩,
        ⟨rfl, ?_, fun same => same⟩, rfl, rfl, ?_⟩
      · simp
        omega
      · intro index _ listed
        have inside := (Array.getElem?_eq_some_iff.mp listed).1
        rw [Array.getElem?_push_lt inside, ← Array.getElem?_eq_getElem inside]
        exact listed
      · rw [Pooled, small]
        simp

theorem Building.scratchSlot : (∃ slot after, emitter.scratchSlot = .ok (slot, after) ∧
      Building frameSlots lowered marks after ∧ Extends emitter after ∧
      after.signatures = emitter.signatures ∧ after.scratch = some slot) ∨
    ∃ error, emitter.scratchSlot = .error error ∧ Refusal error := by
  have slots := building.slots
  unfold Emitter.scratchSlot
  cases found : emitter.scratch with
  | some slot => exact .inl ⟨slot, emitter, rfl, building, Extends.refl emitter, rfl, found⟩
  | none =>
    rw [found] at slots
    by_cases full : emitter.localSlots > 65535
    · exact .inr ⟨_, if_pos full, .localSlots _ _⟩
    · have small : (UInt16.ofNat emitter.localSlots).toNat = emitter.localSlots := by
        rw [UInt16.toNat_ofNat']
        omega
      refine .inl ⟨_, _, if_neg full,
        ⟨building.represents.congr rfl rfl rfl rfl rfl, building.pool, ?_⟩,
        ⟨rfl, fun same => same, fun same => ?_⟩, rfl, rfl⟩
      · simp only [FrameSlots] at slots ⊢
        omega
      · cases found.symm.trans same

theorem Building.jump (condition : Condition) (name : Nat) :
    ∃ segment, Polled segment (.jump condition name) ∧
      Building frameSlots (lowered ++ segment) marks (jump emitter condition name) ∧
      SameFrame emitter (jump emitter condition name) := by
  have frame := sameFrame_jump emitter condition name
  exact ⟨_, polled_pollIf _ _, building.reframe frame (represents_jump building.represents _ _),
    frame⟩

theorem Building.switch (names : List Nat) :
    (∃ segment after, names.length ≤ 65535 ∧ Polled segment (.switch names) ∧
      switch emitter names = .ok after ∧ Building frameSlots (lowered ++ segment) marks after ∧
      SameFrame emitter after) ∨ ∃ error, switch emitter names = .error error ∧ Refusal error := by
  by_cases large : names.length > 65535
  · refine .inr ⟨_, ?_, .switchTargets names.length⟩
    rw [switch_eq, if_pos large]
  · have frame := sameFrame_switched emitter names
    refine .inl ⟨_, switched emitter names, by omega, polled_pollIf _ _, ?_,
      building.reframe frame (represents_switched building.represents names), frame⟩
    rw [switch_eq, if_neg large]

end Building

/-! ## Lowering an instruction -/

def marksAfter (index : Nat) (marks : List (Nat × Nat)) : Normalized → List (Nat × Nat)
  | .label name => (name, index) :: marks
  | _ => marks

section Instruction

variable {context : Context} {lowered : Segment} {marks : List (Nat × Nat)} {emitter : Emitter}

variable (context lowered marks emitter) in
def Outcome (instr : Normalized) (result : Except Error Emitter) : Prop :=
  (∃ segment after, result = .ok after ∧
    Building context.frameSlots (lowered ++ segment) (marksAfter lowered.length marks instr)
      after ∧
    Extends emitter after ∧ Lowers context after.signatures after.scratch instr segment) ∨
  ∃ error, result = .error error ∧ Refusal error

/-- An instruction that becomes actions, in a unit that has grown to hold what they refer to. -/
theorem Building.outcome (building : Building context.frameSlots lowered marks grown)
    (extends_ : Extends emitter grown) {instr : Normalized} (actions : List Action)
    (lowers : Lowers context grown.signatures grown.scratch instr (plain actions))
    (unmarked : marksAfter lowered.length marks instr = marks) :
    Outcome context lowered marks emitter instr (.ok (Lowering.emitAll grown actions)) := by
  have same := sameFrame_emitAll grown actions
  refine .inl ⟨plain actions, _, rfl, ?_, extends_.trans same.extends, ?_⟩
  · rw [unmarked]
    exact building.emitAll actions
  · rw [same.signatures, same.scratch]
    exact lowers

theorem Building.outcome_here (building : Building context.frameSlots lowered marks emitter)
    {instr : Normalized} (actions : List Action)
    (lowers : Lowers context emitter.signatures emitter.scratch instr (plain actions))
    (unmarked : marksAfter lowered.length marks instr = marks) :
    Outcome context lowered marks emitter instr (.ok (Lowering.emitAll emitter actions)) :=
  building.outcome (Extends.refl emitter) actions lowers unmarked

theorem load_eq (emitter : Emitter) (kind : LoadKind) (offset : Nat) :
    load emitter kind offset = emitAll emitter (loadActions kind offset) := by
  unfold load loadActions
  split <;> rfl

theorem store_eq (emitter : Emitter) (kind : StoreKind) (offset : Nat) :
    store emitter kind offset = emitAll emitter (storeActions kind offset) := by
  unfold store storeActions
  split <;> rfl

theorem operator_eq {operator : Operator}
    (known : operatorActions context operator = some actions) :
    Lowering.operator context emitter operator = .ok (emitAll emitter actions) := by
  cases operator with
  | localGet index =>
    obtain ⟨⟨kind, slot⟩, found, rfl⟩ := Option.map_eq_some_iff.mp known
    rw [Lowering.operator, localGet, Context.local, found]
    rfl
  | localSet index =>
    obtain ⟨⟨kind, slot⟩, found, rfl⟩ := Option.map_eq_some_iff.mp known
    rw [Lowering.operator, localSet, Context.local, found]
    rfl
  | globalGet index | globalSet index =>
    obtain ⟨_, found, rfl⟩ := Option.map_eq_some_iff.mp known
    rw [Lowering.operator, Context.globalKind, found]
    rfl
  | load kind offset =>
    cases known
    exact congrArg Except.ok (load_eq emitter kind offset)
  | store kind offset =>
    cases known
    exact congrArg Except.ok (store_eq emitter kind offset)
  | constant value => cases value <;> cases known <;> rfl
  | _ => first | cases known; done | (cases known; rfl)

section

variable (building : Building context.frameSlots lowered marks emitter)

include building

theorem Building.outcome_jump {instr : Normalized} (condition : Condition) (target : Nat)
    (lowers : ∀ signatures scratch segment, Polled segment (.jump condition target) →
      Lowers context signatures scratch instr segment)
    (unmarked : marksAfter lowered.length marks instr = marks) :
    Outcome context lowered marks emitter instr (.ok (Lowering.jump emitter condition target)) := by
  obtain ⟨segment, polled, after, same⟩ := building.jump condition target
  refine .inl ⟨segment, _, rfl, ?_, same.extends, lowers _ _ segment polled⟩
  rw [unmarked]
  exact after

theorem Building.outcome_label (name : Nat) : Outcome context lowered marks emitter (.label name)
      (instruction context emitter (.label name)) := by
  have known := Represents.names_labelFor emitter name
  have represents := (building.represents.labelFor name).define known
  refine .inl ⟨[], _, rfl, ?_, ?_, rfl⟩
  · rw [List.append_nil]
    refine (building.reframe_through (sameFrame_labelFor emitter name) ?_ represents).1
    exact ⟨rfl, rfl, rfl, rfl⟩
  · exact (sameFrame_labelFor emitter name).extends.trans ⟨rfl, id, id⟩

theorem Building.outcome_switch (targets : List Nat) :
    Outcome context lowered marks emitter (.switch targets) (Lowering.switch emitter targets) := by
  rcases building.switch targets with
    ⟨segment, after, few, polled, lowered, building, same⟩ | refused
  · exact .inl ⟨segment, after, lowered, building, same.extends, few, polled⟩
  · exact .inr refused

theorem Building.outcome_dropKeep (drop keep : List ValueKind) :
    Outcome context lowered marks emitter (.dropKeep drop keep)
      (Lowering.dropKeep emitter drop keep) := by
  unfold Lowering.dropKeep
  by_cases zero : ValueKind.slotCount drop = 0
  · rw [if_pos zero]
    refine building.outcome_here [] ?_ rfl
    simp only [Lowers, if_pos zero]
    rfl
  · rw [if_neg zero]
    by_cases wide : ValueKind.slotCount drop > 65535 ∨ ValueKind.slotCount keep > 65535
    · rw [if_pos (by simpa using wide)]
      exact .inr ⟨_, rfl, .wideUnwind⟩
    · rw [if_neg (by simpa using wide)]
      refine building.outcome_here [.dropKeep _ _] ?_ rfl
      simp only [Lowers, if_neg zero]
      exact ⟨by omega, by omega, trivial⟩

end

theorem returnSlots_le (type : FunctionType) : returnSlots type ≤ 2 := by
  unfold returnSlots FunctionType.resultSlots
  split
  · omega
  · rename_i single
    match type.results, single with
    | [], _ => decide
    | [kind], _ => cases kind <;> decide
    | _ :: _ :: _, single => simp at single

section

variable (building : Building context.frameSlots lowered marks emitter)

include building

theorem Building.outcome_leave (kinds : List ValueKind) :
    Outcome context lowered marks emitter (.leave kinds) (Lowering.leave context emitter) := by
  have narrow : ¬ returnSlots context.signature > 65535 := by
    have := returnSlots_le context.signature
    omega
  unfold Lowering.leave
  by_cases several : context.signature.results.length > 1
  · rcases building.signature context.signature with
      ⟨signature, after, found, grown, extends_, -, -, pooled⟩ | refused
    · rw [if_pos several, found]
      simp only [bind, Except.bind, pure, Except.pure, if_neg narrow]
      refine grown.outcome extends_ [.box .results signature, .leave _] ?_ rfl
      simp only [Lowers, if_pos several]
      exact ⟨signature, pooled, rfl⟩
    · rw [if_pos several, refused]
      exact .inr ⟨_, rfl, .signaturePool⟩
  · rw [if_neg several]
    simp only [bind, Except.bind, pure, Except.pure, if_neg narrow]
    refine building.outcome_here [.leave _] ?_ rfl
    simp only [Lowers, if_neg several]

theorem Building.outcome_localTee (inside : index < context.locals.size) :
    Outcome context lowered marks emitter (.localTee index kind)
      (Lowering.localSet context (emitter.emit (.dup (widthOf kind))) index) := by
  have found := Array.getElem?_eq_getElem inside
  rw [Lowering.localSet, Context.local, found]
  exact building.outcome_here [.dup (widthOf kind), .store _ _] ⟨_, _, found, rfl⟩ rfl

end

/-- The actions of a call end with the spreading of its results. -/
theorem unboxResults_emitAll (actions : List Action) (type : FunctionType) (signature : UInt16) :
    unboxResults (emitAll emitter actions) type signature =
      emitAll emitter (actions ++ unboxing type signature) := by
  rw [unboxResults, unboxing, emitAll, emitAll, List.foldl_append]
  split <;> rfl

variable (building : Building context.frameSlots lowered marks emitter)

include building

theorem Building.outcome_call
    {function : Nat} (typed : context.source.functionType function = some type) :
    Outcome context lowered marks emitter (.call function) (call context emitter function) := by
  rw [call, typed]
  rcases building.signature type with
    ⟨signature, after, found, grown, extends_, -, -, pooled⟩ | refused
  · simp only [found, bind, Except.bind, pure, Except.pure]
    have lowers : Lowers context after.signatures after.scratch (.call function)
        (plain (boxing type signature ++ [.checkInterrupt, .call .unit (ofNat function)
          signature] ++ unboxing type signature)) := ⟨type, signature, typed, pooled, rfl⟩
    have outcome := grown.outcome extends_ _ lowers rfl
    rw [← unboxResults_emitAll] at outcome
    unfold boxing at outcome
    cases convention : Convention.of type with
    | slots | boxed =>
      rw [convention] at outcome
      exact outcome
  · simp only [refused, bind, Except.bind]
    exact .inr ⟨_, rfl, .signaturePool⟩

theorem Building.outcome_callIndirect (typed : context.source.types[typeIndex]? = some type) :
    Outcome context lowered marks emitter (.callIndirect typeIndex table)
      (Lowering.callIndirect context emitter typeIndex table) := by
  rw [Lowering.callIndirect, typed]
  rcases building.signature type with
    ⟨signature, pooling, found, grown, extends_, -, -, pooled⟩ | refused
  · simp only [found, bind, Except.bind, pure, Except.pure]
    have finish : ∀ {after} boxes,
        Building context.frameSlots lowered marks after → Extends emitter after →
        Pooled after.signatures signature type → Boxes after.scratch type signature boxes →
        Outcome context lowered marks emitter (.callIndirect typeIndex table)
          (.ok (unboxResults (Lowering.emitAll after (boxes ++ [.checkInterrupt,
            .callIndirect (ofNat typeIndex) (ofNat table) signature])) type
              signature)) := by
      intro after boxes grown extends_ pooled boxed
      rw [unboxResults_emitAll]
      exact grown.outcome extends_ _ ⟨type, signature, boxes, typed, pooled, boxed, rfl⟩ rfl
    cases convention : Convention.of type with
    | slots => exact finish [] grown extends_ pooled (by rw [Boxes, convention])
    | boxed =>
      rcases grown.scratchSlot with ⟨slot, after, kept, grown', further, same, scratch⟩ | refused
      · simp only [kept]
        refine finish [.store .one slot, .box .params signature, .load .one slot] grown'
          (extends_.trans further) (by rw [same]; exact pooled) ?_
        rw [Boxes, convention]
        exact ⟨slot, scratch, rfl⟩
      · obtain ⟨error, failed, refusal⟩ := refused
        simp only [failed]
        exact .inr ⟨error, rfl, refusal⟩
  · simp only [refused, bind, Except.bind]
    exact .inr ⟨_, rfl, .signaturePool⟩

/-- Lowering an instruction that refers to what the function has appends its code, or refuses. -/
theorem Building.instruction
    {instr : Normalized} (lowerable : Lowerable context instr) :
    Outcome context lowered marks emitter instr
      (Lowering.instruction context emitter instr) := by
  cases instr with
  | label name => exact building.outcome_label name
  | goto target => exact building.outcome_jump .always target (fun _ _ _ polled => polled) rfl
  | ifZero target => exact building.outcome_jump .zero target (fun _ _ _ polled => polled) rfl
  | ifNonzero target => exact building.outcome_jump .nonzero target (fun _ _ _ polled => polled) rfl
  | switch targets => exact building.outcome_switch targets
  | dropKeep drop keep => exact building.outcome_dropKeep drop keep
  | leave kinds => exact building.outcome_leave kinds
  | trap => exact building.outcome_here [.trap .unreachable] rfl rfl
  | drop kind => exact building.outcome_here [.pop (widthOf kind)] rfl rfl
  | select kind => exact building.outcome_here [.select (widthOf kind)] rfl rfl
  | localTee _ kind => exact building.outcome_localTee lowerable
  | call function =>
    obtain ⟨_, typed⟩ := Option.isSome_iff_exists.mp lowerable
    exact building.outcome_call typed
  | callIndirect => exact building.outcome_callIndirect (Array.getElem?_eq_getElem lowerable)
  | operator operator =>
    obtain ⟨actions, known⟩ := Option.isSome_iff_exists.mp lowerable
    rw [Lowering.instruction, operator_eq known]
    exact building.outcome_here actions ⟨actions, known, rfl⟩ rfl

end Instruction

end TwinEngine.Lowering
