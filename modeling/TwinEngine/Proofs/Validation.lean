import TwinEngine.Binary.Conversion
import TwinEngine.Proofs.BlockStructure
import TwinEngine.Proofs.Outcome

/-!
Contract: what one step of the check of a body does, in terms of value kinds.

Owns: the kind of a type, the agreement of what a body may refer to with a module, the effect of
each operator on kinds, and the inversion of a step of the check.

Does not own: whole bodies (`Proofs.Shape`).

Subtyping never leaves a kind, so a check that succeeds on types succeeds on kinds as well. An
operand of unknown type stands in code that cannot be reached only.
-/

namespace TwinEngine.Validation

open TwinEngine.Binary Option
open TypeSpace (pairwise refType refWithin valType)

variable {space : TypeSpace} {type : ValType} {types : List ValType} {operand : Operand}
  {frame later : Frame} {state state' : State}

/-! ## Kinds of types -/

def heapKind : HeapType → ValueKind
  | .basic heap | .shared heap => if heap.top = .external then .externRef else .funcRef
  | .defined _ => .funcRef

/-- The kind of values of a type. Vectors have none; any answer does for them. -/
def kindOf : ValType → ValueKind
  | .i32 => .i32
  | .i64 | .v128 => .i64
  | .f32 => .f32
  | .f64 => .f64
  | .ref type => heapKind type.heap

theorem top_of_within {left right : BasicHeap} (within : left.within right = true) :
    left.top = right.top := by
  cases left <;> cases right <;> first | rfl | exact absurd within (by decide)

theorem heapKind_of_heapWithin {left right : HeapType}
    (within : space.heapWithin left right = true) : heapKind left = heapKind right := by
  cases left <;> cases right <;> simp only [TypeSpace.heapWithin, Bool.false_eq_true] at within
  case basic.basic left right => simp only [heapKind, top_of_within within]
  case basic.defined left right =>
    split at within
    · rename_i composite _
      rw [beq_iff_eq] at within
      subst within
      cases composite <;> rfl
    · cases within
  case shared.shared left right => simp only [heapKind, top_of_within within]
  case defined.basic left right =>
    split at within
    · rename_i composite _
      cases composite <;> simp only [CompositeType.basic] at within <;> cases right <;>
        first | rfl | exact absurd within (by decide)
    · cases within
  case defined.defined => rfl

/-- Subtyping keeps to a kind. -/
theorem kindOf_of_within (within : space.within left right = true) :
    kindOf left = kindOf right := by
  cases left <;> cases right <;>
    simp only [TypeSpace.within, refWithin, Bool.and_eq_true] at within
  case ref.ref => exact heapKind_of_heapWithin within.2
  all_goals first | rfl | exact absurd within (by decide) | skip
  all_goals simp at within

@[simp] theorem kindOf_typeOfKind (kind : ValueKind) : kindOf (typeOfKind kind) = kind := by
  cases kind <;> rfl

@[simp] theorem map_kindOf_typeOfKind (kinds : List ValueKind) :
    (kinds.map typeOfKind).map kindOf = kinds := by
  induction kinds with
  | nil => rfl
  | cons _ kinds ih => simpa using ih

theorem heapKind_of_kind (supported : heap.kind = .ok kind) :
    heapKind heap = kind ∧ kind.isRef := by
  unfold HeapType.kind at supported
  split at supported <;> cases supported <;> exact ⟨rfl, rfl⟩

theorem refKind_of_kind {type : RefType} (supported : type.kind = .ok kind) :
    heapKind type.heap = kind ∧ kind.isRef := by
  unfold RefType.kind at supported
  split at supported
  · rename_i heap
    rw [heap]
    cases supported
    exact ⟨rfl, rfl⟩
  · rename_i heap
    rw [heap]
    cases supported
    exact ⟨rfl, rfl⟩
  · cases supported

theorem kindOf_of_kind {kind : ValueKind} (supported : type.kind = .ok kind) :
    kindOf type = kind := by
  cases type <;> simp only [ValType.kind] at supported
  case ref type => exact (refKind_of_kind supported).1
  all_goals cases supported
  all_goals rfl

theorem kindOf_rename (same : type.rename target = some renamed) :
    kindOf renamed = kindOf type := by
  cases type with
  | ref type =>
    simp only [ValType.rename, RefType.rename, map_eq_some_iff] at same
    obtain ⟨_, ⟨heap, rename, rfl⟩, rfl⟩ := same
    cases written : type.heap <;> rw [written] at rename <;>
      simp only [HeapType.rename, some.injEq, map_eq_some_iff] at rename
    case basic | shared => subst rename; simp [kindOf, written]
    case defined =>
      obtain ⟨_, _, rfl⟩ := rename
      simp [kindOf, heapKind, written]
  | _ =>
    cases same
    rfl

theorem isRef_heapKind (heap : HeapType) : (heapKind heap).isRef := by
  cases heap <;> simp only [heapKind] <;> first | rfl | (split <;> rfl)

/-! ## Operands of an open block -/

/-- The kind of an operand. Operands of unknown type have none; any answer does for them. -/
def Operand.kind : Operand → ValueKind
  | .known type => kindOf type
  | .unknown | .someRef => .i32

def Operand.IsKnown (operand : Operand) : Prop := ∃ type, operand = .known type

instance : DecidablePred Operand.IsKnown
  | .known type => isTrue ⟨type, rfl⟩
  | .unknown | .someRef => isFalse fun ⟨_, same⟩ => nomatch same

namespace Frame

def kinds (frame : Frame) : List ValueKind := frame.operands.map Operand.kind

/-- The point that the check has come to can be reached, as far as the block tells. -/
structure Live (frame : Frame) : Prop where
  reachable : frame.unreachable = false
  known : ∀ operand ∈ frame.operands, operand.IsKnown

instance (frame : Frame) : Decidable frame.Live :=
  decidable_of_iff (frame.unreachable = false ∧ ∀ operand ∈ frame.operands, operand.IsKnown)
    ⟨fun ⟨reachable, known⟩ => ⟨reachable, known⟩, fun live => ⟨live.reachable, live.known⟩⟩

/-- Another state of the same block. -/
structure Continues (frame later : Frame) : Prop where
  form : later.form = frame.form
  params : later.params = frame.params
  results : later.results = frame.results
  unreachable : frame.unreachable = true → later.unreachable = true

theorem Continues.refl (frame : Frame) : frame.Continues frame := ⟨rfl, rfl, rfl, id⟩

theorem Continues.trans {first second third : Frame} (early : first.Continues second)
    (late : second.Continues third) : first.Continues third :=
  ⟨late.form.trans early.form, late.params.trans early.params, late.results.trans early.results,
    fun dead => late.unreachable (early.unreachable dead)⟩

theorem popAny_operands (popped : frame.popAny = some (operand, later)) :
    ∃ operands, later = { frame with operands } := by
  unfold popAny at popped
  split at popped
  · cases popped
    exact ⟨_, rfl⟩
  · split at popped <;> cases popped
    exact ⟨frame.operands, rfl⟩

theorem popAny_live (live : frame.Live) (popped : frame.popAny = some (operand, later)) :
    later.Live ∧ operand.IsKnown ∧ frame.kinds = operand.kind :: later.kinds := by
  unfold popAny at popped
  split at popped
  · rename_i operands
    cases popped
    have known := live.known
    rw [operands] at known
    refine ⟨⟨live.reachable, fun other member => known other (List.mem_cons_of_mem _ member)⟩,
      known _ List.mem_cons_self, ?_⟩
    simp [kinds, operands]
  · rw [live.reachable] at popped
    cases popped

theorem kind_of_fits (known : operand.IsKnown) (fit : fits space expected operand = true) :
    operand.kind = kindOf expected := by
  obtain ⟨_, rfl⟩ := known
  exact kindOf_of_within fit

theorem pop_eq_some (popped : frame.pop space expected = some later) :
    ∃ operand, frame.popAny = some (operand, later) ∧ fits space expected operand = true := by
  simp only [pop, bind_eq_some_iff, ite_none_right_eq_some] at popped
  obtain ⟨⟨operand, _⟩, found, fit, same⟩ := popped
  cases same
  exact ⟨operand, found, fit⟩

theorem popRef_eq_some (popped : frame.popRef = some (answer, later)) :
    ∃ operand, frame.popAny = some (operand, later) ∧
      (operand.IsKnown → operand.kind.isRef = true) := by
  simp only [popRef, bind_eq_some_iff, Prod.exists] at popped
  obtain ⟨operand, _, found, reference⟩ := popped
  refine ⟨operand, ?_⟩
  split at reference <;> cases reference <;> refine ⟨found, fun known => ?_⟩
  · obtain ⟨_, known⟩ := known
    cases known
  · obtain ⟨_, known⟩ := known
    cases known
  · exact isRef_heapKind _

theorem popReversed_operands (popped : popReversed space types frame = some later) :
    ∃ operands, later = { frame with operands } := by
  induction types generalizing frame with
  | nil =>
    cases popped
    exact ⟨later.operands, rfl⟩
  | cons _ types ih =>
    simp only [popReversed, bind_eq_some_iff] at popped
    obtain ⟨_, first, rest⟩ := popped
    obtain ⟨_, found, _⟩ := pop_eq_some first
    obtain ⟨operands, rfl⟩ := popAny_operands found
    obtain ⟨operands, rfl⟩ := ih rest
    exact ⟨operands, rfl⟩

theorem popReversed_live (live : frame.Live) (popped : popReversed space types frame = some later) :
    later.Live ∧ frame.kinds = types.map kindOf ++ later.kinds := by
  induction types generalizing frame with
  | nil =>
    cases popped
    exact ⟨live, rfl⟩
  | cons _ types ih =>
    simp only [popReversed, bind_eq_some_iff] at popped
    obtain ⟨_, first, rest⟩ := popped
    obtain ⟨_, found, fit⟩ := pop_eq_some first
    obtain ⟨middleLive, known, firstKinds⟩ := popAny_live live found
    obtain ⟨laterLive, restKinds⟩ := ih middleLive rest
    refine ⟨laterLive, ?_⟩
    rw [firstKinds, restKinds, kind_of_fits known fit]
    rfl

theorem popAll_operands (popped : frame.popAll space types = some later) :
    ∃ operands, later = { frame with operands } :=
  popReversed_operands popped

theorem popAll_live (live : frame.Live) (popped : frame.popAll space types = some later) :
    later.Live ∧ frame.kinds = (types.map kindOf).reverse ++ later.kinds := by
  have result := popReversed_live live popped
  rwa [List.map_reverse] at result

theorem push_operands (types : List ValType) (frame : Frame) :
    (frame.push types).operands = (types.map Operand.known).reverse ++ frame.operands := by
  cases frame with
  | mk _ _ _ operands =>
    induction types generalizing operands with
    | nil => rfl
    | cons _ types ih =>
      simp only [List.map_cons, List.reverse_cons, List.append_assoc, List.singleton_append]
      exact ih _

theorem push_kinds (types : List ValType) (frame : Frame) :
    (frame.push types).kinds = (types.map kindOf).reverse ++ frame.kinds := by
  rw [kinds, push_operands, List.map_append, List.map_reverse, List.map_map]
  rfl

theorem push_live (live : frame.Live) : (frame.push types).Live := by
  refine ⟨live.reachable, fun operand member => ?_⟩
  rw [push_operands] at member
  rcases List.mem_append.mp member with new | old
  · obtain ⟨type, _, rfl⟩ := List.mem_map.mp (List.mem_reverse.mp new)
    exact ⟨type, rfl⟩
  · exact live.known operand old

theorem pushOperand_live (known : operand.IsKnown) (live : frame.Live) :
    (frame.pushOperand operand).Live := by
  refine ⟨live.reachable, fun other member => ?_⟩
  rcases List.mem_cons.mp member with new | old
  · rw [new]
    exact known
  · exact live.known other old

/-- The operands change from `params` on top to `results` on top, and the block stays live. -/
def Turns (frame later : Frame) (params results : List ValueKind) : Prop :=
  later.Live ∧ ∃ rest, frame.kinds = params.reverse ++ rest ∧ later.kinds = results.reverse ++ rest

theorem apply_turns {params results : List ValType}
    (applied : frame.apply space params results = some later) : frame.Continues later ∧
      (frame.Live → frame.Turns later (params.map kindOf) (results.map kindOf)) := by
  simp only [apply, map_eq_some_iff] at applied
  obtain ⟨middle, popped, rfl⟩ := applied
  refine ⟨?_, fun live => ?_⟩
  · obtain ⟨_, rfl⟩ := popAll_operands popped
    exact ⟨rfl, rfl, rfl, id⟩
  · obtain ⟨middleLive, kinds⟩ := popAll_live live popped
    exact ⟨push_live middleLive, middle.kinds, kinds, push_kinds _ _⟩

/-- A block that ends with its results. -/
theorem kinds_of_closes (live : frame.Live) (closed : frame.closes space = true) :
    frame.kinds = (frame.results.map kindOf).reverse := by
  unfold closes at closed
  split at closed
  · rename_i popped
    obtain ⟨_, same⟩ := popAll_live live popped
    rw [List.isEmpty_iff] at closed
    rw [same, kinds, closed]
    exact List.append_nil _
  · cases closed

end Frame

/-! ## Effects -/

/-- What a body may refer to is there in a module, with the kinds that the types say. -/
structure Agrees (context : Context) (source : Module) (locals : List ValueKind) : Prop where
  signature : ∀ {index : Nat} {signature : Signature},
    context.space.signature index = some signature →
      source.types[index]? = some ⟨signature.params.map kindOf, signature.results.map kindOf⟩
  functions : ∀ {function typeIndex : Nat}, context.functions[function]? = some typeIndex →
    source.functionTypeIndex function = some typeIndex
  tables : ∀ {table : Nat} {note : TableNote}, context.tables[table]? = some note →
    ∃ type, source.tables[table]? = some type ∧ type.element = heapKind note.element.heap
  globals : ∀ {index : Nat} {note : GlobalNote}, context.globals[index]? = some note →
    ∃ global, source.globals[index]? = some global ∧ global.kind = kindOf note.type ∧
      global.isMutable = note.isMutable
  elements : ∀ {segment : Nat} {type : RefType}, context.elements[segment]? = some type →
    ∃ element, source.elements[segment]? = some element ∧ element.kind = heapKind type.heap
  memory : 0 < context.memories.size → source.memory.isSome
  data : ∀ {segment : Nat}, context.hasData segment = true → segment < source.data.size
  locals : ∀ {index : Nat} {type : ValType}, context.locals[index]? = some type →
    locals[index]? = some (kindOf type)

/-- An operator that neither opens nor closes a block nor transfers control takes operands of kinds
`params` and gives operands of kinds `results`. What it refers to is there. -/
def Effect (source : Module) (locals params results : List ValueKind) : TwinEngine.Operator → Prop
  | .nop => params = [] ∧ results = []
  | .call function => source.functionType function = some ⟨params, results⟩
  | .callIndirect table typeIndex =>
    ∃ type kind, source.types[typeIndex]? = some type ∧ source.tables[table]? = some kind ∧
      kind.element = .funcRef ∧ params = type.params ++ [.i32] ∧ results = type.results
  | .drop => ∃ kind, params = [kind] ∧ results = []
  | .select => ∃ kind, params = [kind, kind, .i32] ∧ results = [kind]
  | .selectKind kind => params = [kind, kind, .i32] ∧ results = [kind]
  | .localGet index => ∃ kind, locals[index]? = some kind ∧ params = [] ∧ results = [kind]
  | .localSet index => ∃ kind, locals[index]? = some kind ∧ params = [kind] ∧ results = []
  | .localTee index => ∃ kind, locals[index]? = some kind ∧ params = [kind] ∧ results = [kind]
  | .globalGet index =>
    ∃ global, source.globals[index]? = some global ∧ params = [] ∧ results = [global.kind]
  | .globalSet index =>
    ∃ global, source.globals[index]? = some global ∧ global.isMutable = true ∧
      params = [global.kind] ∧ results = []
  | .tableGet table =>
    ∃ type, source.tables[table]? = some type ∧ params = [.i32] ∧ results = [type.element]
  | .tableSet table =>
    ∃ type, source.tables[table]? = some type ∧ params = [.i32, type.element] ∧ results = []
  | .tableSize table => ∃ type, source.tables[table]? = some type ∧ params = [] ∧ results = [.i32]
  | .tableGrow table =>
    ∃ type, source.tables[table]? = some type ∧ params = [type.element, .i32] ∧ results = [.i32]
  | .tableFill table =>
    ∃ type, source.tables[table]? = some type ∧ params = [.i32, type.element, .i32] ∧ results = []
  | .tableCopy target origin =>
    ∃ left right, source.tables[target]? = some left ∧ source.tables[origin]? = some right ∧
      right.element = left.element ∧ params = [.i32, .i32, .i32] ∧ results = []
  | .tableInit table segment =>
    ∃ type element, source.tables[table]? = some type ∧
      source.elements[segment]? = some element ∧ element.kind = type.element ∧
      params = [.i32, .i32, .i32] ∧ results = []
  | .elementDrop segment => segment < source.elements.size ∧ params = [] ∧ results = []
  | .load kind _ => source.memory.isSome ∧ params = [.i32] ∧ results = [kind.result]
  | .store kind _ => source.memory.isSome ∧ params = [.i32, kind.operand] ∧ results = []
  | .memorySize => source.memory.isSome ∧ params = [] ∧ results = [.i32]
  | .memoryGrow => source.memory.isSome ∧ params = [.i32] ∧ results = [.i32]
  | .memoryFill | .memoryCopy => source.memory.isSome ∧ params = [.i32, .i32, .i32] ∧ results = []
  | .memoryInit segment =>
    source.memory.isSome ∧ segment < source.data.size ∧ params = [.i32, .i32, .i32] ∧ results = []
  | .dataDrop segment => segment < source.data.size ∧ params = [] ∧ results = []
  | .constant value => params = [] ∧ results = [value.kind]
  | .refNull kind => kind.isRef ∧ params = [] ∧ results = [kind]
  | .refIsNull => ∃ kind : ValueKind, kind.isRef ∧ params = [kind] ∧ results = [.i32]
  | .refFunc function => function < source.functionCount ∧ params = [] ∧ results = [.funcRef]
  | .numeric op => params = op.params ∧ results = [op.result]
  | .unreachable | .enter .. | .otherwise | .finish | .branch _ | .branchIf _ | .branchTable ..
  | .leave | .tailCall _ | .tailCallIndirect .. => False

def Frame.labelKinds (frame : Frame) : List ValueKind := frame.labelTypes.map kindOf

def bodyKinds (frames : List Frame) : List ValueKind :=
  match frames.getLast? with
  | some frame => frame.results.map kindOf
  | none => []

/-- The operands of a live block have the given kinds on top, and are not looked at again. -/
def Frame.Departs (frame later : Frame) (kinds : List ValueKind) : Prop :=
  later.unreachable = true ∧ ∃ rest, frame.kinds = kinds.reverse ++ rest

/-- What an operator that neither opens nor closes a block does to the innermost block, which is
live. -/
def FlatEffect (source : Module) (locals : List ValueKind) (frames : List Frame)
    (head later : Frame) : TwinEngine.Operator → Prop
  | .unreachable => head.Departs later []
  | .branch depth => ∃ target, frames[depth]? = some target ∧ head.Departs later target.labelKinds
  | .branchIf depth =>
    ∃ target, frames[depth]? = some target ∧
      head.Turns later (target.labelKinds ++ [.i32]) target.labelKinds
  | .branchTable targets fallback =>
    ∀ depth ∈ targets ++ [fallback], ∃ target, frames[depth]? = some target ∧
      head.Departs later (target.labelKinds ++ [.i32])
  | .leave => head.Departs later (bodyKinds frames)
  | .tailCall function =>
    ∃ type, source.functionType function = some type ∧ type.results = bodyKinds frames ∧
      head.Departs later type.params
  | .tailCallIndirect table typeIndex =>
    ∃ type kind, source.types[typeIndex]? = some type ∧ source.tables[table]? = some kind ∧
      kind.element = .funcRef ∧ type.results = bodyKinds frames ∧
      head.Departs later (type.params ++ [.i32])
  | op =>
    ∃ params results, Effect source locals params results op ∧
      head.Turns later params results

/-- A step that changes the innermost block only. -/
def Flat (source : Module) (locals : List ValueKind) (frames frames' : List Frame)
    (op : TwinEngine.Operator) : Prop :=
  ∃ head later outer, frames = head :: outer ∧ frames' = later :: outer ∧ head.Continues later ∧
    (head.Live → FlatEffect source locals frames head later op)

theorem FlatEffect.of_effect (effect : Effect source locals params results op)
    (turns : head.Turns later params results) : FlatEffect source locals frames head later op := by
  cases op <;> first | exact effect.elim | exact ⟨params, results, effect, turns⟩

theorem FlatEffect.live_or_dead (effect : FlatEffect source locals frames head later op) :
    later.Live ∨ later.unreachable = true := by
  cases op with
  | branchTable _ fallback =>
    obtain ⟨_, _, departs⟩ := effect fallback (by simp)
    exact .inr departs.1
  | unreachable | leave => exact .inr effect.1
  | branch =>
    obtain ⟨_, _, departs⟩ := effect
    exact .inr departs.1
  | tailCall =>
    obtain ⟨_, _, _, departs⟩ := effect
    exact .inr departs.1
  | tailCallIndirect =>
    obtain ⟨_, _, _, _, _, _, departs⟩ := effect
    exact .inr departs.1
  | branchIf =>
    obtain ⟨_, _, turns⟩ := effect
    exact .inl turns.1
  | _ =>
    obtain ⟨_, _, _, turns⟩ := effect
    exact .inl turns.1

/-! ## Inversion of a step -/

theorem ensure_eq_some : ensure condition = some answer ↔ condition = true := by
  cases condition <;> simp [ensure]

variable {α β ε : Type} {items : List α} {images : List β}

theorem map_kindOf_of_pairwise (agree : pairwise space.within left right = true) :
    left.map kindOf = right.map kindOf := by
  induction left generalizing right with
  | nil => cases right <;> first | rfl | cases agree
  | cons _ _ ih =>
    cases right with
    | nil => cases agree
    | cons =>
      simp only [pairwise, Bool.and_eq_true] at agree
      rw [List.map_cons, List.map_cons, kindOf_of_within agree.1, ih agree.2]

namespace State

theorem onFrame_eq_some (changed : state.onFrame change = some state') :
    ∃ head later outer, state.frames = head :: outer ∧ state'.frames = later :: outer ∧
      change head = some later := by
  unfold onFrame at changed
  split at changed
  · cases changed
  · rename_i head outer frames
    simp only [map_eq_some_iff] at changed
    obtain ⟨later, result, rfl⟩ := changed
    exact ⟨head, later, outer, frames, rfl, result⟩

/-- A step that takes parameters and gives results. -/
theorem apply_flat (applied : state.apply context params results = some state')
    (effect : Effect source locals (params.map kindOf) (results.map kindOf) op) :
    Flat source locals state.frames state'.frames op := by
  obtain ⟨head, later, outer, before, after, change⟩ := onFrame_eq_some applied
  obtain ⟨continues, turns⟩ := Frame.apply_turns change
  exact ⟨head, later, outer, before, after, continues, fun live => .of_effect effect (turns live)⟩

theorem kept_flat (kept : state.onFrame some = some state')
    (effect : Effect source locals [] [] op) :
    Flat source locals state.frames state'.frames op := by
  obtain ⟨head, _, outer, before, after, change⟩ := onFrame_eq_some kept
  cases change
  exact ⟨head, head, outer, before, after, .refl head, fun live =>
    .of_effect effect ⟨live, head.kinds, rfl, rfl⟩⟩

/-- A step that takes operands and goes elsewhere. -/
theorem transfer_departs (transferred : state.transfer context types = some state') :
    ∃ head later outer, state.frames = head :: outer ∧ state'.frames = later :: outer ∧
      head.Continues later ∧ (head.Live → head.Departs later (types.map kindOf)) := by
  obtain ⟨head, later, outer, before, after, change⟩ := onFrame_eq_some transferred
  simp only [map_eq_some_iff] at change
  obtain ⟨_, popped, rfl⟩ := change
  refine ⟨head, _, outer, before, after, ?_, fun live => ⟨rfl, ?_⟩⟩
  · obtain ⟨operands, rfl⟩ := Frame.popAll_operands popped
    exact ⟨rfl, rfl, rfl, fun _ => rfl⟩
  · exact ⟨_, (Frame.popAll_live live popped).2⟩

theorem labelTypes_eq_some (found : state.labelTypes depth = some types) :
    ∃ target, state.frames[depth]? = some target ∧ types = target.labelTypes := by
  simp only [labelTypes, map_eq_some_iff] at found
  obtain ⟨target, here, same⟩ := found
  exact ⟨target, here, same.symm⟩

theorem map_kindOf_bodyResults (state : State) :
    state.bodyResults.map kindOf = bodyKinds state.frames := by
  unfold bodyResults bodyKinds
  split <;> simp_all

end State

theorem Frame.Continues.labelTypes (continues : frame.Continues later) :
    later.labelTypes = frame.labelTypes := by
  simp only [Frame.labelTypes, continues.form, continues.params, continues.results]

theorem Frame.Turns.departs {head middle : Frame} {kinds : List ValueKind}
    (turns : head.Turns middle [.i32] []) (departs : middle.Departs later kinds) :
    head.Departs later (kinds ++ [.i32]) := by
  obtain ⟨_, rest, before, after⟩ := turns
  obtain ⟨dead, beneath, same⟩ := departs
  refine ⟨dead, beneath, ?_⟩
  rw [before, ← List.nil_append rest, ← List.reverse_nil, ← after, same]
  simp

theorem stepPlain_branchTable
    (stepped : stepPlain context state (.branchTable targets fallback) = some state') :
    Flat source locals state.frames state'.frames (.branchTable targets fallback) := by
  simp only [stepPlain, bind_eq_some, ensure_eq_some] at stepped
  obtain ⟨types, label, middle, applied, _, mapped, _, first, _, admitted, transferred⟩ := stepped
  obtain ⟨head, here, outer, before, between, change⟩ := State.onFrame_eq_some applied
  obtain ⟨continues, turns⟩ := Frame.apply_turns change
  obtain ⟨_, later, _, sameFrames, after, goesOn, departs⟩ := State.transfer_departs transferred
  rw [between] at sameFrames first
  cases sameFrames
  cases first
  refine ⟨head, later, outer, before, after, continues.trans goesOn, fun live => ?_⟩
  have turned := turns live
  have dead := (departs turned.1).1
  -- A label names the same types before and after the index is taken.
  have target : ∀ {depth carried},
      middle.labelTypes depth = some carried →
        ∃ target, state.frames[depth]? = some target ∧ target.labelKinds = carried.map kindOf := by
    intro depth carried found
    obtain ⟨target, here, rfl⟩ := State.labelTypes_eq_some found
    rw [between] at here
    rw [before]
    cases depth with
    | zero =>
      cases here
      exact ⟨head, rfl, by rw [Frame.labelKinds, continues.labelTypes]⟩
    | succ depth => exact ⟨target, here, rfl⟩
  intro depth member
  rcases List.mem_append.mp member with listed | last
  · obtain ⟨carried, carriedMember, found⟩ :=
      List.mem_map.mp (mapM_eq_some.mp mapped ▸ List.mem_map_of_mem listed)
    obtain ⟨goal, goalFound, kinds⟩ := target found.symm
    refine ⟨goal, goalFound, turned.departs ⟨dead, ?_⟩⟩
    have admits := List.all_eq_true.mp admitted carried carriedMember
    simp only [admitsTarget, Bool.and_eq_true, isSome_iff_exists] at admits
    obtain ⟨_, _, popped⟩ := admits
    rw [kinds]
    exact ⟨_, (Frame.popAll_live turned.1 popped).2⟩
  · rw [List.mem_singleton] at last
    subst last
    obtain ⟨goal, goalFound, rfl⟩ := State.labelTypes_eq_some label
    exact ⟨goal, goalFound, turned.departs (departs turned.1)⟩

theorem tailCall_departs (stepped : state.tailCall context signature extra = some state') :
    signature.results.map kindOf = bodyKinds state.frames ∧
      ∃ head later outer, state.frames = head :: outer ∧ state'.frames = later :: outer ∧
        head.Continues later ∧
        (head.Live → head.Departs later (signature.params.map kindOf ++ extra.map kindOf)) := by
  unfold State.tailCall at stepped
  split at stepped
  · rename_i agree
    rw [map_kindOf_of_pairwise agree, State.map_kindOf_bodyResults, ← List.map_append]
    exact ⟨rfl, State.transfer_departs stepped⟩
  · cases stepped

def nests : TwinEngine.Operator → Bool
  | .enter .. | .otherwise | .finish => true
  | _ => false

section Step

variable {context : Context} {source : Module} {locals : List ValueKind}

section

variable (agrees : Agrees context source locals)

include agrees

theorem Agrees.functionType {signature : Signature}
    (found : context.functionSignature function = some signature) : source.functionType function =
      some ⟨signature.params.map kindOf, signature.results.map kindOf⟩ := by
  simp only [Context.functionSignature, bind_eq_some_iff] at found
  obtain ⟨_, here, type⟩ := found
  simp only [Module.functionType, agrees.functions here, bind_some, agrees.signature type]

theorem Agrees.lt_functionCount (found : context.functions[function]? = some typeIndex) :
    function < source.functionCount := by
  have here := agrees.functions found
  unfold Module.functionTypeIndex at here
  unfold Module.functionCount
  split at here
  · omega
  · have := lt_size here
    omega

theorem Agrees.funcTable {table : Nat} (found : context.tables[table]? = some note)
    (functions : context.space.refWithin note.element (.nullableOf .func) = true) :
    ∃ type, source.tables[table]? = some type ∧ type.element = .funcRef := by
  obtain ⟨type, here, element⟩ := agrees.tables found
  simp only [refWithin, Bool.and_eq_true] at functions
  rw [heapKind_of_heapWithin functions.2] at element
  exact ⟨type, here, element⟩

theorem Agrees.hasMemory {index : Nat}
    (found : context.memories[index]? = some note) : source.memory.isSome := by
  have below := lt_size found
  exact agrees.memory (by omega)

end

theorem kindOf_refTo (found : context.refTo nullable index = some type) :
    kindOf type = .funcRef := by
  simp only [Context.refTo, refType, RefType.rename, HeapType.rename,
    map_eq_some_iff, ite_none_right_eq_some, Option.map_map] at found
  obtain ⟨_, ⟨_, _, _, rfl⟩, rfl⟩ := found
  rfl

theorem kindOf_valType (found : context.space.valType written = some type) :
    kindOf type = kindOf written := by
  simp only [valType, ite_none_right_eq_some] at found
  exact kindOf_rename found.2

theorem stepPlain_select (stepped : stepPlain context state .select = some state') :
    Flat source locals state.frames state'.frames .select := by
  obtain ⟨head, _, outer, before, after, change⟩ := State.onFrame_eq_some stepped
  simp only [bind_eq_some, pure_def, Prod.exists, some.injEq] at change
  obtain ⟨_, condition, _, _, rightTaken, _, frame'', leftTaken, operand, choice,
    rfl⟩ := change
  obtain ⟨_, testedTaken, fit⟩ := Frame.pop_eq_some condition
  refine ⟨head, _, outer, before, after, ?_, fun live => ?_⟩
  · obtain ⟨_, rfl⟩ := Frame.popAny_operands testedTaken
    obtain ⟨_, rfl⟩ := Frame.popAny_operands rightTaken
    obtain ⟨_, rfl⟩ := Frame.popAny_operands leftTaken
    exact ⟨rfl, rfl, rfl, id⟩
  · obtain ⟨frameLive, known, kinds⟩ := Frame.popAny_live live testedTaken
    obtain ⟨frameLive', ⟨rightType, rfl⟩, kinds'⟩ := Frame.popAny_live frameLive rightTaken
    obtain ⟨frameLive'', ⟨leftType, rfl⟩, kinds''⟩ := Frame.popAny_live frameLive' leftTaken
    have same : leftType = rightType ∧ operand = .known leftType := by
      unfold selected at choice
      split at choice <;> simp_all
    obtain ⟨rfl, rfl⟩ := same
    refine ⟨[kindOf leftType, kindOf leftType, .i32], [kindOf leftType], ⟨_, rfl, rfl⟩,
      Frame.pushOperand_live ⟨leftType, rfl⟩ frameLive'', frame''.kinds, ?_, rfl⟩
    rw [kinds, kinds', kinds'', Frame.kind_of_fits known fit]
    rfl

theorem stepPlain_drop (stepped : stepPlain context state .drop = some state') :
    Flat source locals state.frames state'.frames .drop := by
  obtain ⟨head, _, outer, before, after, change⟩ := State.onFrame_eq_some stepped
  simp only [map_eq_some_iff, Prod.exists] at change
  obtain ⟨operand, _, taken, rfl⟩ := change
  refine ⟨head, _, outer, before, after, ?_, fun live => ?_⟩
  · obtain ⟨_, rfl⟩ := Frame.popAny_operands taken
    exact ⟨rfl, rfl, rfl, id⟩
  · obtain ⟨frameLive, _, kinds⟩ := Frame.popAny_live live taken
    exact ⟨[operand.kind], [], ⟨_, rfl, rfl⟩, frameLive, _, kinds, rfl⟩

theorem stepPlain_refIsNull (stepped : stepPlain context state .refIsNull = some state') :
    Flat source locals state.frames state'.frames .refIsNull := by
  obtain ⟨head, _, outer, before, after, change⟩ := State.onFrame_eq_some stepped
  simp only [map_eq_some_iff, Prod.exists] at change
  obtain ⟨_, _, popped, rfl⟩ := change
  obtain ⟨operand, taken, isReference⟩ := Frame.popRef_eq_some popped
  refine ⟨head, _, outer, before, after, ?_, fun live => ?_⟩
  · obtain ⟨_, rfl⟩ := Frame.popAny_operands taken
    exact ⟨rfl, rfl, rfl, id⟩
  · obtain ⟨frameLive, known, kinds⟩ := Frame.popAny_live live taken
    exact ⟨[operand.kind], [.i32], ⟨_, isReference known, rfl, rfl⟩, Frame.push_live frameLive, _,
      kinds, Frame.push_kinds _ _⟩

theorem stepPlain_flat (agrees : Agrees context source locals) {op : TwinEngine.Operator}
    (flat : nests op = false) (stepped : stepPlain context state op = some state') :
    Flat source locals state.frames state'.frames op := by
  have whole := stepped
  cases op with
    simp only [stepPlain, bind_eq_some, ensure_eq_some, pure_def, some.injEq,
      reduceCtorEq] at stepped
  | otherwise | finish => cases flat
  | branchTable => exact stepPlain_branchTable whole
  | select => exact stepPlain_select whole
  | drop => exact stepPlain_drop whole
  | refIsNull => exact stepPlain_refIsNull whole
  | unreachable => exact State.transfer_departs stepped
  | nop => exact State.kept_flat stepped ⟨rfl, rfl⟩
  | branch depth =>
    obtain ⟨_, label, transferred⟩ := stepped
    obtain ⟨target, found, rfl⟩ := State.labelTypes_eq_some label
    obtain ⟨head, later, outer, before, after, continues, departs⟩ :=
      State.transfer_departs transferred
    exact ⟨head, later, outer, before, after, continues, fun live => ⟨target, found, departs live⟩⟩
  | branchIf depth =>
    obtain ⟨_, label, applied⟩ := stepped
    obtain ⟨target, found, rfl⟩ := State.labelTypes_eq_some label
    obtain ⟨head, later, outer, before, after, change⟩ := State.onFrame_eq_some applied
    obtain ⟨continues, turns⟩ := Frame.apply_turns change
    refine ⟨head, later, outer, before, after, continues, fun live => ⟨target, found, ?_⟩⟩
    have turned := turns live
    rwa [List.map_append] at turned
  | leave =>
    obtain ⟨head, later, outer, before, after, continues, departs⟩ := State.transfer_departs stepped
    rw [State.map_kindOf_bodyResults] at departs
    exact ⟨head, later, outer, before, after, continues, departs⟩
  | call function =>
    obtain ⟨signature, found, applied⟩ := stepped
    exact State.apply_flat applied (agrees.functionType found)
  | callIndirect table typeIndex =>
    obtain ⟨note, found, _, functions, signature, type, applied⟩ := stepped
    obtain ⟨kind, here, element⟩ := agrees.funcTable found functions
    refine State.apply_flat applied ⟨_, kind, agrees.signature type, here, element, ?_, rfl⟩
    rw [List.map_append]
    rfl
  | tailCall function =>
    obtain ⟨signature, found, called⟩ := stepped
    obtain ⟨results, head, later, outer, before, after, continues, departs⟩ :=
      tailCall_departs called
    refine ⟨head, later, outer, before, after, continues, fun live =>
      ⟨_, agrees.functionType found, results, ?_⟩⟩
    have departed := departs live
    rwa [List.map_nil, List.append_nil] at departed
  | tailCallIndirect table typeIndex =>
    obtain ⟨note, found, _, functions, signature, type, called⟩ := stepped
    obtain ⟨kind, here, element⟩ := agrees.funcTable found functions
    obtain ⟨results, head, later, outer, before, after, continues, departs⟩ :=
      tailCall_departs called
    exact ⟨head, later, outer, before, after, continues, fun live =>
      ⟨_, kind, agrees.signature type, here, element, results, departs live⟩⟩
  | localGet index =>
    obtain ⟨type, found, _, _, applied⟩ := stepped
    exact State.apply_flat applied ⟨_, agrees.locals found, rfl, rfl⟩
  | localSet index | localTee index =>
    obtain ⟨type, found, middle, applied, rfl⟩ := stepped
    show Flat source locals state.frames middle.frames _
    exact State.apply_flat applied ⟨_, agrees.locals found, rfl, rfl⟩
  | globalGet index =>
    obtain ⟨note, found, applied⟩ := stepped
    obtain ⟨global, here, kind, _⟩ := agrees.globals found
    exact State.apply_flat applied ⟨global, here, rfl, by rw [kind]; rfl⟩
  | globalSet index =>
    obtain ⟨note, found, _, writable, applied⟩ := stepped
    obtain ⟨global, here, kind, same⟩ := agrees.globals found
    exact State.apply_flat applied ⟨global, here, same.trans writable, by rw [kind]; rfl, rfl⟩
  | tableGet table =>
    obtain ⟨note, found, applied⟩ := stepped
    obtain ⟨type, here, element⟩ := agrees.tables found
    exact State.apply_flat applied ⟨type, here, rfl, by rw [element]; rfl⟩
  | tableSet table | tableGrow table | tableFill table =>
    obtain ⟨note, found, applied⟩ := stepped
    obtain ⟨type, here, element⟩ := agrees.tables found
    exact State.apply_flat applied ⟨type, here, by rw [element]; rfl, rfl⟩
  | tableSize table =>
    obtain ⟨note, found, applied⟩ := stepped
    obtain ⟨type, here, _⟩ := agrees.tables found
    exact State.apply_flat applied ⟨type, here, rfl, rfl⟩
  | tableCopy target =>
    simp only [refWithin, Bool.and_eq_true] at stepped
    obtain ⟨_, targetFound, note, found, _, within, applied⟩ := stepped
    obtain ⟨left, leftHere, leftElement⟩ := agrees.tables targetFound
    obtain ⟨right, rightHere, rightElement⟩ := agrees.tables found
    refine State.apply_flat applied ⟨left, right, leftHere, rightHere, ?_, rfl, rfl⟩
    rw [leftElement, rightElement, heapKind_of_heapWithin within.2]
  | tableInit table segment =>
    simp only [refWithin, Bool.and_eq_true] at stepped
    obtain ⟨note, found, reference, elementFound, _, within, applied⟩ := stepped
    obtain ⟨type, here, kind⟩ := agrees.tables found
    obtain ⟨element, elementHere, elementKind⟩ := agrees.elements elementFound
    refine State.apply_flat applied ⟨type, element, here, elementHere, ?_, rfl, rfl⟩
    rw [kind, elementKind, heapKind_of_heapWithin within.2]
  | elementDrop segment =>
    obtain ⟨_, found, unchanged⟩ := stepped
    obtain ⟨_, elementHere, _⟩ := agrees.elements found
    exact State.kept_flat unchanged ⟨lt_size elementHere, rfl, rfl⟩
  | dataDrop segment =>
    obtain ⟨_, found, unchanged⟩ := stepped
    exact State.kept_flat unchanged ⟨agrees.data found, rfl, rfl⟩
  | constant => exact State.apply_flat stepped ⟨rfl, by simp⟩
  | refFunc function =>
    obtain ⟨typeIndex, found, _, _, type, reference, applied⟩ := stepped
    refine State.apply_flat applied ⟨agrees.lt_functionCount found, rfl, ?_⟩
    rw [List.map_singleton, kindOf_refTo reference]
  | numeric op => exact State.apply_flat stepped ⟨map_kindOf_typeOfKind _, by simp⟩

/-- A step of an operator that neither opens nor closes a block. -/
theorem step_flat (agrees : Agrees context source locals)
    (supported : written.supported = .ok op) (flat : nests op = false)
    (stepped : step context state written = some state') :
    Flat source locals state.frames state'.frames op := by
  cases written with
  | plain plain =>
    cases supported
    exact stepPlain_flat agrees flat stepped
  | enter _ note =>
    obtain ⟨_, _, rfl⟩ := map_eq_ok.mp supported
    cases flat
  | selectType type =>
    obtain ⟨_, found, rfl⟩ := map_eq_ok.mp supported
    simp only [step, bind_eq_some] at stepped
    obtain ⟨renamed, known, applied⟩ := stepped
    have same := (kindOf_valType known).trans (kindOf_of_kind found)
    refine State.apply_flat applied ⟨?_, ?_⟩ <;> simp only [List.map_cons, List.map_nil, same]
    rfl
  | refNull heap =>
    obtain ⟨_, found, rfl⟩ := map_eq_ok.mp supported
    simp only [step, bind_eq_some] at stepped
    obtain ⟨renamed, known, applied⟩ := stepped
    obtain ⟨same, reference⟩ := heapKind_of_kind found
    refine State.apply_flat applied ⟨reference, rfl, ?_⟩
    rw [List.map_singleton, kindOf_valType known]
    exact congrArg ([·]) same
  | load kind operand | store kind operand =>
    cases supported
    simp only [step, bind_eq_some, ensure_eq_some,
      Context.admits, Bool.and_eq_true, decide_eq_true_eq] at stepped
    obtain ⟨_, admitted, applied⟩ := stepped
    refine State.apply_flat applied ⟨agrees.memory (by omega), ?_, ?_⟩ <;> simp <;> rfl
  | memorySize memory | memoryGrow memory | memoryFill memory =>
    cases supported
    simp only [step, bind_eq_some] at stepped
    obtain ⟨_, found, applied⟩ := stepped
    exact State.apply_flat applied ⟨agrees.hasMemory found, rfl, rfl⟩
  | memoryCopy =>
    cases supported
    simp only [step, bind_eq_some] at stepped
    obtain ⟨_, found, _, _, applied⟩ := stepped
    exact State.apply_flat applied ⟨agrees.hasMemory found, rfl, rfl⟩
  | memoryInit _ memory =>
    cases supported
    simp only [step, bind_eq_some, ensure_eq_some] at stepped
    obtain ⟨_, found, _, data, applied⟩ := stepped
    exact State.apply_flat applied ⟨agrees.hasMemory found, agrees.data data, rfl, rfl⟩
  | extension => cases supported

/-! ## Opening, dividing and closing blocks -/

def openedForm : BlockForm → FrameForm
  | .block => .block
  | .loop => .loop
  | .conditional => .conditional

def signatureKinds (signature : Signature) : FunctionType :=
  ⟨signature.params.map kindOf, signature.results.map kindOf⟩

theorem Agrees.blockType (agrees : Agrees context source locals) {type : BlockType}
    {signature : Signature} (supported : note.blockType = .ok type)
    (found : context.blockSignature note = some signature) :
    source.blockType type = .ok (signatureKinds signature) := by
  cases note with
  | empty =>
    cases supported
    cases found
    rfl
  | value written =>
    obtain ⟨_, known, rfl⟩ := map_eq_ok.mp supported
    simp only [Context.blockSignature, map_eq_some_iff] at found
    obtain ⟨_, same, rfl⟩ := found
    simp [Module.blockType, signatureKinds, kindOf_valType same, kindOf_of_kind known]
  | function =>
    cases supported
    simp only [Module.blockType, agrees.signature found]
    rfl

theorem Frame.enter_live (form : FrameForm) (signature : Signature) (assigned : List Nat) :
    (Frame.enter form signature assigned).Live :=
  push_live ⟨rfl, fun _ member => absurd member List.not_mem_nil⟩

theorem Frame.enter_kinds (form : FrameForm) (signature : Signature) (assigned : List Nat) :
    (Frame.enter form signature assigned).kinds = (signature.params.map kindOf).reverse := by
  rw [Frame.enter, push_kinds]
  exact List.append_nil _

def conditionKinds : BlockForm → List ValueKind
  | .conditional => [.i32]
  | .block | .loop => []

theorem step_enter (agrees : Agrees context source locals) {form : BlockForm} {type : BlockType}
    (supported : written.supported = .ok (.enter form type))
    (stepped : step context state written = some state') :
    ∃ head later outer signature, source.blockType type = .ok (signatureKinds signature) ∧
      state.frames = head :: outer ∧
      state'.frames = Frame.enter (openedForm form) signature state.assigned :: later :: outer ∧
      head.Continues later ∧ (head.Live → later.Live ∧ head.kinds =
        (signature.params.map kindOf ++ conditionKinds form).reverse ++ later.kinds) := by
  cases written with
  | enter written note =>
    obtain ⟨_, known, ⟨⟩⟩ := map_eq_ok.mp supported
    simp only [step, bind_eq_some, State.opened, map_eq_some_iff] at stepped
    obtain ⟨signature, found, _, changed, rfl⟩ := stepped
    obtain ⟨head, later, outer, before, after, popped⟩ := State.onFrame_eq_some changed
    refine ⟨head, later, outer, signature, agrees.blockType known found, before, ?_, ?_, ?_⟩
    · rw [after]
      cases form <;> rfl
    · obtain ⟨_, rfl⟩ := Frame.popAll_operands popped
      exact ⟨rfl, rfl, rfl, id⟩
    · intro live
      obtain ⟨laterLive, kinds⟩ := Frame.popAll_live live popped
      refine ⟨laterLive, ?_⟩
      rw [kinds, List.map_append]
      cases form <;> rfl
  | plain plain =>
    cases supported
    cases stepped
  | selectType type => obtain ⟨_, _, ⟨⟩⟩ := map_eq_ok.mp supported
  | refNull heap => obtain ⟨_, _, ⟨⟩⟩ := map_eq_ok.mp supported
  | _ => cases supported

def isPlain : TwinEngine.Operator → Bool
  | .enter .. | .selectKind _ | .load .. | .store .. | .memorySize | .memoryGrow | .memoryFill
  | .memoryCopy | .memoryInit _ | .refNull _ => false
  | _ => true

theorem eq_plain_of_supported {written : Binary.Operator} (plain : isPlain op = true)
    (supported : written.supported = .ok op) : written = .plain op := by
  cases written with
  | plain =>
    cases supported
    rfl
  | enter _ note =>
    obtain ⟨_, _, rfl⟩ := map_eq_ok.mp supported
    cases plain
  | selectType type =>
    obtain ⟨_, _, rfl⟩ := map_eq_ok.mp supported
    cases plain
  | refNull heap =>
    obtain ⟨_, _, rfl⟩ := map_eq_ok.mp supported
    cases plain
  | extension => cases supported
  | _ =>
    cases supported
    cases plain

/-- A step that starts the second arm of a conditional. -/
theorem step_otherwise (supported : written.supported = .ok .otherwise)
    (stepped : step context state written = some state') :
    ∃ head outer, state.frames = head :: outer ∧ head.form = .conditional ∧
      head.closes context.space = true ∧ state'.frames =
        Frame.enter .otherwise ⟨head.params, head.results⟩ head.assigned :: outer := by
  cases eq_plain_of_supported rfl supported
  simp only [step, stepPlain, otherwise] at stepped
  split at stepped
  · cases stepped
  · rename_i head outer frames
    simp only [bind_eq_some, ensure_eq_some, Bool.and_eq_true,
      decide_eq_true_eq, pure_def, some.injEq] at stepped
    obtain ⟨_, ⟨form, closes⟩, rfl⟩ := stepped
    exact ⟨head, outer, frames, form, closes, rfl⟩

theorem step_finish (supported : written.supported = .ok .finish)
    (stepped : step context state written = some state') :
    ∃ head outer, state.frames = head :: outer ∧ head.closes context.space = true ∧
      (head.form = .conditional → head.params.map kindOf = head.results.map kindOf) ∧
      (outer = [] ∧ state'.frames = [] ∨
        ∃ next rest, outer = next :: rest ∧ state'.frames = next.push head.results :: rest) := by
  cases eq_plain_of_supported rfl supported
  simp only [step, stepPlain, finish] at stepped
  split at stepped
  · cases stepped
  · rename_i head outer frames
    simp only [bind_eq_some, ensure_eq_some] at stepped
    obtain ⟨_, closes, stepped⟩ := stepped
    have sameArms : head.form = .conditional →
        (Frame.enter .otherwise ⟨head.params, head.results⟩ []).closes context.space = true := by
      intro form
      rw [if_pos form] at stepped
      simp only [bind_eq_some, ensure_eq_some] at stepped
      obtain ⟨_, closed, _⟩ := stepped
      exact closed
    refine ⟨head, outer, frames, closes, fun form => ?_, ?_⟩
    · have same := Frame.kinds_of_closes (Frame.enter_live _ _ _) (sameArms form)
      rw [Frame.enter_kinds] at same
      exact List.reverse_inj.mp same
    · have skips : ∀ {answer}, (if head.form = .conditional then
            (ensure ((Frame.enter .otherwise ⟨head.params, head.results⟩ []).closes
              context.space)) >>= fun _ => answer
          else answer) = some state' → answer = some state' := by
        intro answer found
        split at found
        · obtain ⟨_, _, found⟩ := bind_eq_some.mp found
          exact found
        · exact found
      cases outer with
      | nil =>
        cases skips stepped
        exact .inl ⟨rfl, rfl⟩
      | cons next rest =>
        cases skips stepped
        exact .inr ⟨next, rest, rfl, rfl⟩

end Step

end TwinEngine.Validation
