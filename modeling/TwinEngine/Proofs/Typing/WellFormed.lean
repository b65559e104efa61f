import TwinEngine.Proofs.BlockGrammar
import TwinEngine.Proofs.Typing.Module

/-!
Contract: modules that are read from core binaries are well formed.

Owns: the index spaces of a module, the references that each of its parts makes into them, that an
operator passes the check only if its references are in range, that checked bodies are properly
nested, and what a well-formed module is.

Dead code is checked too: none of these facts depends on whether an operator can be reached.
-/

namespace TwinEngine

open Option (bind_eq_some_iff isSome_iff_exists mem_toList)

/-! ## References -/

/-- The index spaces of a module. -/
inductive Space where
  | type
  | function
  | table
  | memory
  | global
  | element
  | data
  | localVar
deriving DecidableEq, Repr

def Operator.refs : Operator → List (Space × Nat)
  | .enter _ (.function typeIndex) => [(.type, typeIndex)]
  | .call function | .tailCall function | .refFunc function => [(.function, function)]
  | .callIndirect table typeIndex | .tailCallIndirect table typeIndex =>
    [(.table, table), (.type, typeIndex)]
  | .localGet index | .localSet index | .localTee index => [(.localVar, index)]
  | .globalGet index | .globalSet index => [(.global, index)]
  | .tableGet table | .tableSet table | .tableSize table | .tableGrow table | .tableFill table =>
    [(.table, table)]
  | .tableCopy target source => [(.table, target), (.table, source)]
  | .tableInit table segment => [(.table, table), (.element, segment)]
  | .elementDrop segment => [(.element, segment)]
  | .load .. | .store .. | .memorySize | .memoryGrow | .memoryFill | .memoryCopy => [(.memory, 0)]
  | .memoryInit segment => [(.memory, 0), (.data, segment)]
  | .dataDrop segment => [(.data, segment)]
  | _ => []

/-- What a constant expression refers to. -/
def ConstExpr.refs : ConstExpr → List (Space × Nat)
  | .refFunc function => [(.function, function)]
  | .globalGet index => [(.global, index)]
  | .constant _ | .refNull _ => []

def ElementMode.refs : ElementMode → List (Space × Nat)
  | .active table offset => (.table, table) :: offset.refs
  | .passive | .declared => []

def ElementSegment.refs (segment : ElementSegment) : List (Space × Nat) :=
  segment.items.flatMap ConstExpr.refs ++ segment.mode.refs

def DataSegment.refs (segment : DataSegment) : List (Space × Nat) :=
  segment.offset.toList.flatMap fun offset => (.memory, 0) :: offset.refs

def ExportKind.space : ExportKind → Space
  | .func => .function
  | .table => .table
  | .memory => .memory
  | .global => .global

def Module.refs (source : Module) : List (Space × Nat) :=
  source.imports.toList.map (fun entry => (.type, entry.typeIndex)) ++
    source.functions.toList.map (fun typeIndex => (.type, typeIndex)) ++
    source.tables.toList.flatMap (fun table => table.init.toList.flatMap ConstExpr.refs) ++
    source.globals.toList.flatMap (fun global => global.init.refs) ++
    source.exports.toList.map (fun entry => (entry.kind.space, entry.index)) ++
    source.start.toList.map (fun function => (.function, function)) ++
    source.elements.toList.flatMap ElementSegment.refs ++
    source.data.toList.flatMap DataSegment.refs

def Module.spaceSize (source : Module) (locals : Nat) : Space → Nat
  | .type => source.types.size
  | .function => source.functionCount
  | .table => source.tables.size
  | .memory => source.memory.toList.length
  | .global => source.globals.size
  | .element => source.elements.size
  | .data => source.data.size
  | .localVar => locals

def Module.InRange (source : Module) (locals : Nat) (refs : List (Space × Nat)) : Prop :=
  ∀ ref ∈ refs, ref.2 < source.spaceSize locals ref.1

namespace Module.InRange

variable {source : Module} {locals : Nat}

theorem nil : source.InRange locals [] := fun _ member => absurd member List.not_mem_nil

theorem cons {refs : List (Space × Nat)} (first : index < source.spaceSize locals space)
    (rest : source.InRange locals refs) : source.InRange locals ((space, index) :: refs) := by
  intro ref member
  rcases List.mem_cons.mp member with rfl | later
  · exact first
  · exact rest ref later

theorem one (first : index < source.spaceSize locals space) :
    source.InRange locals [(space, index)] := cons first nil

theorem append (left : source.InRange locals first) (right : source.InRange locals second) :
    source.InRange locals (first ++ second) := by
  intro ref member
  rcases List.mem_append.mp member with early | late
  · exact left ref early
  · exact right ref late

theorem flatMap {α : Type} {items : List α} {refs : α → List (Space × Nat)}
    (each : ∀ item ∈ items, source.InRange locals (refs item)) :
    source.InRange locals (items.flatMap refs) := by
  intro ref member
  obtain ⟨item, listed, here⟩ := List.mem_flatMap.mp member
  exact each item listed ref here

theorem map {α : Type} {items : List α} {refs : α → Space × Nat}
    (each : ∀ item ∈ items, (refs item).2 < source.spaceSize locals (refs item).1) :
    source.InRange locals (items.map refs) := by
  intro _ member
  obtain ⟨item, listed, rfl⟩ := List.mem_map.mp member
  exact each item listed

end Module.InRange

/-! ## Operators that pass the check -/

namespace Validation

variable {context : Context} {source : Module} {locals : List ValueKind}

variable {signature : Binary.Signature} {state state' : State} {op : TwinEngine.Operator}

section

variable (agrees : Agrees context source locals)

include agrees

theorem Agrees.type_lt (found : context.space.signature index = some signature) :
    index < source.types.size :=
  lt_size (agrees.signature found)

theorem Agrees.table_lt (found : context.tables[index]? = some note) :
    index < source.tables.size := by
  obtain ⟨_, here, _⟩ := agrees.tables found
  exact lt_size here

theorem Agrees.element_lt (found : context.elements[index]? = some type) :
    index < source.elements.size := by
  obtain ⟨_, here, _⟩ := agrees.elements found
  exact lt_size here

theorem Agrees.local_lt (found : context.locals[index]? = some type) : index < locals.length :=
  lt_length (agrees.locals found)

end

theorem memory_pos (there : source.memory.isSome) : 0 < source.memory.toList.length := by
  obtain ⟨memory, same⟩ := isSome_iff_exists.mp there
  simp [same]

/-- An operator that is written as it is run passes only if what it refers to is there. -/
theorem inRange_of_stepPlain (agrees : Agrees context source locals)
    (stepped : stepPlain context state op = some state') :
    source.InRange locals.length op.refs := by
  cases op with
  | call function | tailCall function =>
    obtain ⟨_, found, _⟩ := bind_eq_some_iff.mp stepped
    obtain ⟨_, here, _⟩ := bind_eq_some_iff.mp found
    exact .one (agrees.lt_functionCount here)
  | callIndirect table typeIndex | tailCallIndirect table typeIndex =>
    obtain ⟨_, tableFound, rest⟩ := bind_eq_some_iff.mp stepped
    obtain ⟨_, _, rest⟩ := bind_eq_some_iff.mp rest
    obtain ⟨_, typeFound, _⟩ := bind_eq_some_iff.mp rest
    exact .cons (agrees.table_lt tableFound) (.one (agrees.type_lt typeFound))
  | localGet index | localSet index | localTee index =>
    obtain ⟨_, found, _⟩ := bind_eq_some_iff.mp stepped
    exact .one (agrees.local_lt found)
  | globalGet index | globalSet index =>
    obtain ⟨_, found, _⟩ := bind_eq_some_iff.mp stepped
    obtain ⟨_, here, _⟩ := agrees.globals found
    exact .one (lt_size here)
  | tableGet table | tableSet table | tableSize table | tableGrow table | tableFill table =>
    obtain ⟨_, found, _⟩ := bind_eq_some_iff.mp stepped
    exact .one (agrees.table_lt found)
  | tableCopy =>
    obtain ⟨_, targetFound, rest⟩ := bind_eq_some_iff.mp stepped
    obtain ⟨_, sourceFound, _⟩ := bind_eq_some_iff.mp rest
    exact .cons (agrees.table_lt targetFound) (.one (agrees.table_lt sourceFound))
  | tableInit table segment =>
    obtain ⟨_, tableFound, rest⟩ := bind_eq_some_iff.mp stepped
    obtain ⟨_, elementFound, _⟩ := bind_eq_some_iff.mp rest
    exact .cons (agrees.table_lt tableFound) (.one (agrees.element_lt elementFound))
  | elementDrop segment =>
    obtain ⟨_, found, _⟩ := bind_eq_some_iff.mp stepped
    exact .one (agrees.element_lt found)
  | dataDrop segment =>
    obtain ⟨_, there, _⟩ := bind_eq_some_iff.mp stepped
    exact .one (agrees.data (ensure_eq_some.mp there))
  | refFunc function =>
    obtain ⟨_, found, _⟩ := bind_eq_some_iff.mp stepped
    exact .one (agrees.lt_functionCount found)
  | enter | load | store | memorySize | memoryGrow | memoryFill | memoryCopy | memoryInit =>
    cases stepped
  | _ => exact .nil

/-- An operator passes the check only if what it refers to is there. -/
theorem inRange_of_step (agrees : Agrees context source locals)
    (supported : written.supported = .ok op) (stepped : step context state written = some state') :
    source.InRange locals.length op.refs := by
  cases written with
  | plain plain =>
    cases supported
    exact inRange_of_stepPlain agrees stepped
  | enter _ note =>
    obtain ⟨type, known, rfl⟩ := map_eq_ok.mp supported
    obtain ⟨_, found, _⟩ := bind_eq_some_iff.mp stepped
    cases note with
    | empty =>
      cases known
      exact .nil
    | value written =>
      obtain ⟨_, _, rfl⟩ := map_eq_ok.mp known
      exact .nil
    | function =>
      cases known
      exact .one (agrees.type_lt found)
  | selectType type | refNull heap =>
    obtain ⟨_, _, rfl⟩ := map_eq_ok.mp supported
    exact .nil
  | load kind operand | store kind operand =>
    cases supported
    obtain ⟨_, admitted, _⟩ := bind_eq_some_iff.mp stepped
    simp only [ensure_eq_some, Context.admits, Bool.and_eq_true, decide_eq_true_eq] at admitted
    exact .one (memory_pos (agrees.memory (by omega)))
  | memorySize memory | memoryGrow memory | memoryFill memory | memoryCopy memory =>
    cases supported
    obtain ⟨_, found, _⟩ := bind_eq_some_iff.mp stepped
    exact .one (memory_pos (agrees.hasMemory found))
  | memoryInit _ memory =>
    cases supported
    obtain ⟨_, found, rest⟩ := bind_eq_some_iff.mp stepped
    obtain ⟨_, there, _⟩ := bind_eq_some_iff.mp rest
    exact .cons (memory_pos (agrees.hasMemory found))
      (.one (agrees.data (ensure_eq_some.mp there)))
  | extension => cases supported

/-- The open blocks of a check as the recognizer of nested operators sees them. -/
def divisible (frames : List Frame) : List Bool := frames.map (·.form == .conditional)

open BlockStructure in
/-- The check opens, divides and closes blocks as the recognizer does. -/
theorem nest_of_step (agrees : Agrees context source locals)
    (supported : written.supported = .ok op) (stepped : step context state written = some state') :
    nest (divisible state.frames) op = some (divisible state'.frames) := by
  cases kind : nests op with
  | false =>
    obtain ⟨head, later, outer, before, after, continues, _⟩ :=
      step_flat agrees supported kind stepped
    have flat : isFlat op = true := by
      cases op <;> first | rfl | cases kind
    rw [before, after, divisible, List.map_cons, nest_flat flat, divisible, List.map_cons,
      continues.form]
  | true =>
    cases op with
    | enter form =>
      obtain ⟨head, later, outer, _, _, before, after, continues, _⟩ :=
        step_enter agrees supported stepped
      rw [before, after, divisible, divisible, List.map_cons, List.map_cons, List.map_cons,
        continues.form]
      cases form <;> cases later.form == .conditional <;> rfl
    | otherwise =>
      obtain ⟨head, outer, before, conditional, _, after⟩ := step_otherwise supported stepped
      rw [before, after, divisible, List.map_cons, conditional]
      rfl
    | finish =>
      obtain ⟨head, outer, before, _, _, ends⟩ := step_finish supported stepped
      rw [before, divisible, List.map_cons]
      rcases ends with ⟨rfl, after⟩ | ⟨_, _, rfl, after⟩
      · rw [after]
        cases head.form == .conditional <;> rfl
      · rw [after]
        cases head.form == .conditional <;> rfl
    | _ => cases kind

open BlockStructure in
theorem nest_of_steps (agrees : Agrees context source locals)
    (supported : written.mapM Binary.Operator.supported = .ok ops)
    (checked : steps context state written = some final) :
    ops.foldlM nest (divisible state.frames) = some (divisible final.frames) ∧
      ∀ op ∈ ops, source.InRange locals.length op.refs := by
  induction written generalizing state ops with
  | nil =>
    cases supported
    cases checked
    exact ⟨rfl, fun _ member => absurd member List.not_mem_nil⟩
  | cons _ _ ih =>
    simp only [List.mapM_cons, bind_eq_ok] at supported
    obtain ⟨op, firstSupported, ops, restSupported, same⟩ := supported
    cases same
    obtain ⟨_, stepped, checked⟩ := bind_eq_some_iff.mp checked
    obtain ⟨read, inRange⟩ := ih restSupported checked
    refine ⟨?_, fun other member => ?_⟩
    · rw [List.foldlM_cons, nest_of_step agrees firstSupported stepped]
      exact read
    · rcases List.mem_cons.mp member with rfl | later
      · exact inRange_of_step agrees firstSupported stepped
      · exact inRange other later

theorem nested_of_bodyTyped (agrees : Agrees context source locals)
    (supported : written.mapM Binary.Operator.supported = .ok ops)
    (typed : bodyTyped context results written = true) : BlockStructure.ProperlyNested ops ∧
      ∀ op ∈ ops, source.InRange locals.length op.refs := by
  unfold bodyTyped at typed
  split at typed
  · rename_i checked
    obtain ⟨read, inRange⟩ := nest_of_steps agrees supported checked
    rw [List.isEmpty_iff.mp typed] at read
    exact ⟨BlockStructure.properlyNested_of_nest read, inRange⟩
  · cases typed

end Validation

/-! ## Well-formed modules -/

/-- A module whose parts fit together. -/
structure Module.WellFormed (source : Module) : Prop where
  bodyCount : source.bodies.size = source.functions.size
  types : ∀ function < source.functionCount, (source.functionType function).isSome
  bodies : ∀ function, (source.body function).isSome ↔
    source.importCount ≤ function ∧ function < source.functionCount
  nested : ∀ {function : Nat} {body : Body}, source.body function = some body →
    BlockStructure.ProperlyNested (body.instructions.toList.map Instruction.operator)
  ends : ∀ {function : Nat} {body : Body}, source.body function = some body →
    ∃ last, body.instructions.back? = some last ∧ last.operator = .finish ∧ last.depth = 0 ∧
      last.scope = none
  code : ∀ {function : Nat} {type : FunctionType} {body : Body},
    source.functionType function = some type → source.body function = some body →
    ∀ instr ∈ body.instructions,
      source.InRange (type.params.length + body.locals.length) instr.operator.refs
  refs : source.InRange 0 source.refs
  earlier : ∀ {index other : Nat} {global : Global}, source.globals[index]? = some global →
    global.init = .globalGet other → other < index
  labels : ∀ {function : Nat} {body : Body}, source.body function = some body →
    ∀ instr ∈ body.instructions, ∀ label ∈ instr.labels,
      label < body.instructions.size

namespace Typing

open Binary

theorem ConstTyped.inRange (typed : ConstTyped source bound kind expr) :
    source.InRange locals expr.refs := by
  cases expr with
  | refFunc => exact .one typed.1
  | globalGet =>
    obtain ⟨_, _, found, _⟩ := typed
    exact .one (lt_size found)
  | constant | refNull => exact .nil

theorem ElementTyped.inRange {source : Module} {segment : ElementSegment}
    (typed : ElementTyped source segment) : source.InRange locals segment.refs := by
  refine .append (.flatMap fun item member => (typed.items item member).inRange) ?_
  cases mode : segment.mode with
  | passive | declared => exact .nil
  | active =>
    obtain ⟨offsetTyped, _, found⟩ := typed.mode mode
    exact .cons (lt_size found) offsetTyped.inRange

variable {sections : Sections} {source : Module}

theorem typeIndex_lt (typed : ModuleTyped source) (function : Nat)
    (below : function < source.functionCount)
    (here : source.functionTypeIndex function = some typeIndex) :
    typeIndex < source.types.size := by
  obtain ⟨_, found⟩ := typed.types below
  rw [Module.functionType, here, Option.bind_some] at found
  exact lt_size found

theorem inRange_refs (typed : ModuleTyped source)
    (exports : ∀ {index : Nat} {exported : Export}, source.exports[index]? = some exported →
      exported.index < entityCount source exported.kind) : source.InRange 0 source.refs := by
  repeat' apply Module.InRange.append
  · refine .map fun _ member => ?_
    obtain ⟨index, below, rfl⟩ := List.mem_iff_getElem.mp member
    have inside : index < source.imports.size := by simpa using below
    refine typeIndex_lt typed index (by unfold Module.functionCount; omega) ?_
    rw [Module.functionTypeIndex, if_pos inside]
    simp [inside]
  · refine .map fun typeIndex member => ?_
    obtain ⟨index, below, rfl⟩ := List.mem_iff_getElem.mp member
    have inside : index < source.functions.size := by simpa using below
    refine typeIndex_lt typed (source.imports.size + index)
      (by unfold Module.functionCount; omega) ?_
    rw [Module.functionTypeIndex, if_neg (by omega), Nat.add_sub_cancel_left]
    simp [inside]
  · refine .flatMap fun _ member => .flatMap fun init written => ?_
    obtain ⟨index, found⟩ := List.mem_iff_getElem?.mp member
    rw [Array.getElem?_toList] at found
    exact ((typed.tables found).2 init (mem_toList.mp written)).inRange
  · refine .flatMap fun _ member => ?_
    obtain ⟨index, found⟩ := List.mem_iff_getElem?.mp member
    rw [Array.getElem?_toList] at found
    exact (typed.globals found).inRange
  · refine .map fun exported member => ?_
    obtain ⟨index, found⟩ := List.mem_iff_getElem?.mp member
    rw [Array.getElem?_toList] at found
    have inside := exports found
    cases kind : exported.kind <;> rw [kind] at inside <;> exact inside
  · refine .map fun function named => ?_
    have found := typed.start (mem_toList.mp named)
    obtain ⟨typeIndex, here, _⟩ := bind_eq_some_iff.mp found
    show function < source.functionCount
    unfold Module.functionTypeIndex at here
    unfold Module.functionCount
    split at here
    · omega
    · have := lt_size here
      omega
  · refine .flatMap fun segment member => ?_
    obtain ⟨index, found⟩ := List.mem_iff_getElem?.mp member
    rw [Array.getElem?_toList] at found
    exact (typed.elements found).inRange
  · refine .flatMap fun segment member => .flatMap fun _ written => ?_
    obtain ⟨index, found⟩ := List.mem_iff_getElem?.mp member
    rw [Array.getElem?_toList] at found
    obtain ⟨memory, offsetTyped⟩ := typed.data found (mem_toList.mp written)
    exact .cons (Validation.memory_pos memory) offsetTyped.inRange

theorem wellFormed_of_valid (describes : Describes sections source)
    (valid : Validation.sectionsValid sections = true) : source.WellFormed := by
  have typed := moduleTyped_of_valid describes valid
  -- What the check of one body says, with the type that the function has.
  have checked : ∀ {function : Nat} {type : FunctionType} {body : Body},
      source.functionType function = some type → source.body function = some body →
      ∃ ops, body.instructions = annotate ops ∧
        BlockStructure.ProperlyNested ops ∧ ∀ op ∈ ops,
          source.InRange (type.params.length + body.locals.length) op.refs := by
    intro function type body typeFound bodyFound
    obtain ⟨context, _, _, _, agrees, _, _, codeValid, supported, typeHere⟩ :=
      exists_codeValid describes valid typeFound bodyFound
    obtain ⟨_, _, ops, _, _, operatorsEq, _, annotated, inside, bodyTyped⟩ :=
      exists_checked_of_codeValid agrees codeValid supported typeHere
    obtain ⟨nested, inRange⟩ := Validation.nested_of_bodyTyped inside operatorsEq bodyTyped
    rw [List.length_append] at inRange
    exact ⟨ops, annotated, nested, inRange⟩
  have nested : ∀ {function : Nat} {body : Body}, source.body function = some body →
      ∃ ops, body.instructions = annotate ops ∧
        BlockStructure.ProperlyNested ops := by
    intro function body found
    obtain ⟨type, typeFound⟩ := typed.exists_type found
    obtain ⟨ops, annotated, nested, _⟩ := checked typeFound found
    exact ⟨ops, annotated, nested⟩
  constructor
  case bodyCount => exact typed.sizes
  case types =>
    intro function below
    obtain ⟨type, found⟩ := typed.types below
    exact isSome_iff_exists.mpr ⟨type, found⟩
  case bodies =>
    intro function
    constructor
    · intro there
      obtain ⟨body, found⟩ := isSome_iff_exists.mp there
      unfold Module.body at found
      split at found
      · cases found
      · have below := lt_size found
        rw [typed.sizes] at below
        unfold Module.importCount Module.functionCount
        omega
    · rintro ⟨defined, below⟩
      obtain ⟨_, body, _, found⟩ := typed.exists_body defined below
      exact isSome_iff_exists.mpr ⟨body, found⟩
  case nested =>
    intro function body found
    obtain ⟨ops, annotated, nested⟩ := nested found
    rwa [annotated, BlockStructure.map_operator_annotate]
  case ends =>
    intro function body found
    obtain ⟨ops, annotated, nested⟩ := nested found
    rw [annotated]
    exact nested.back?
  case code =>
    intro function type body typeFound bodyFound instr member
    obtain ⟨ops, annotated, _, inRange⟩ := checked typeFound bodyFound
    apply inRange
    rw [← BlockStructure.map_operator_annotate ops, ← annotated]
    exact List.mem_map_of_mem (Array.mem_toList_iff.mpr member)
  case refs =>
    obtain ⟨context, accepted⟩ := isSome_iff_exists.mp valid
    obtain ⟨_, prepared, _⟩ := bind_eq_some_iff.mp accepted
    exact inRange_refs typed (prepared_of_contextOf describes prepared).exports
  case earlier =>
    intro _ _ _ found written
    have initTyped := typed.globals found
    rw [written] at initTyped
    exact initTyped.1
  case labels =>
    intro function body found instr member _ listed
    obtain ⟨ops, annotated, nested⟩ := nested found
    rw [annotated] at member ⊢
    exact BlockStructure.label_lt nested.getLast? member listed

end Typing

theorem Binary.Sections.exists_of_parse (core : bytes.take 8 = magic ++ moduleVersion)
    (parsed : Module.parse bytes = .ok source) :
    ∃ sections, Sections.ofBytes? bytes = some sections := by
  cases read : Sections.ofBytes? bytes with
  | some sections => exact ⟨sections, rfl⟩
  | none =>
    have other : Component.ofBytes? bytes = none := by
      rw [Component.ofBytes?, Component.Reader.afterHeader?, core, if_neg (by decide)]
      rfl
    rw [Module.parse, read, other] at parsed
    cases parsed

/-- A module that is read from the bytes of a core module is well formed. -/
theorem Module.wellFormed_of_parse {bytes : List UInt8} {source : Module}
    (core : bytes.take 8 = Binary.Sections.magic ++ Binary.Sections.moduleVersion)
    (parsed : Module.parse bytes = .ok source) : source.WellFormed := by
  obtain ⟨sections, read⟩ := Binary.Sections.exists_of_parse core parsed
  obtain ⟨valid, describes⟩ := Typing.describes_of_parse read parsed
  exact Typing.wellFormed_of_valid describes valid

/-- A module with an import, a global that starts as another, segments, a start function, and a
loop with a conditional and dead code behind a return. -/
def deadCallBytes : List UInt8 :=
  [0x00, 0x61, 0x73, 0x6d, 0x01, 0x00, 0x00, 0x00,
    0x01, 0x09, 0x02, 0x60, 0x00, 0x00, 0x60, 0x01, 0x7f, 0x01, 0x7f,
    0x02, 0x07, 0x01, 0x01, 0x65, 0x01, 0x66, 0x00, 0x00,
    0x03, 0x03, 0x02, 0x01, 0x00, 0x04, 0x04, 0x01, 0x70, 0x00, 0x02, 0x05, 0x03, 0x01, 0x00, 0x01,
    0x06, 0x0b, 0x02, 0x7f, 0x00, 0x41, 0x03, 0x0b, 0x7f, 0x00, 0x23, 0x00, 0x0b,
    0x07, 0x05, 0x01, 0x01, 0x61, 0x00, 0x01, 0x08, 0x01, 0x02,
    0x09, 0x07, 0x01, 0x00, 0x41, 0x00, 0x0b, 0x01, 0x01, 0x0c, 0x01, 0x01,
    0x0a, 0x1b, 0x02, 0x16, 0x00, 0x03, 0x7f, 0x20, 0x00, 0x04, 0x7f, 0x23, 0x01, 0x05, 0x41, 0x02,
    0x0b, 0x0f, 0x10, 0x02, 0x20, 0x00, 0x0c, 0x00, 0x0b, 0x0b, 0x02, 0x00, 0x0b,
    0x0b, 0x07, 0x01, 0x00, 0x23, 0x00, 0x0b, 0x01, 0x78]

theorem Module.wellFormed_of_parse_deadCall :
    ∃ source, Module.parse deadCallBytes = .ok source ∧ source.functionCount = 3 ∧
      source.refs.length = 10 ∧ source.WellFormed := by
  obtain ⟨source, parsed, functions, references⟩ := exists_ok (Module.parse deadCallBytes)
    (fun source => source.functionCount = 3 ∧ source.refs.length = 10) (by decide +kernel)
  exact ⟨source, parsed, functions, references, Module.wellFormed_of_parse (by decide) parsed⟩

end TwinEngine
