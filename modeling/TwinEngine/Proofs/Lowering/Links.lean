import TwinEngine.Proofs.Binary.Bounds
import TwinEngine.Proofs.Lowering.Program

/-!
Contract: what the code of a unit refers to.

Owns: the functions in a dispatch table, and that calls and writes of globals in the code of a unit
stem from instructions of the body and name what these name.
-/

namespace TwinEngine

open Machine.Instruction (plain)

variable {source : Module} {function typeIndex : Nat} {type : FunctionType}

theorem Module.lt_of_functionType (typed : source.functionType function = some type) :
    function < source.functionCount := by
  unfold Module.functionType Module.functionTypeIndex at typed
  unfold Module.functionCount
  split at typed
  · omega
  · obtain ⟨_, here, _⟩ := Option.bind_eq_some_iff.mp typed
    have := lt_size here
    omega

theorem Module.exists_dispatch (source : Module) (found : source.types[typeIndex]? = some type) :
    ∃ functions, source.dispatchTables[typeIndex]? = some functions ∧ functions.Pairwise (· < ·) ∧
      ∀ function, function ∈ functions ↔ source.functionType function = some type := by
  refine ⟨_, by rw [dispatchTables, Array.getElem?_map, found]; rfl, ?_, fun function => ?_⟩
  · rw [List.pairwise_map, List.filter_map, List.pairwise_map]
    exact List.pairwise_lt_range.filter _
  · simp only [List.mem_map, List.mem_filter, List.mem_range, Prod.exists, beq_iff_eq]
    constructor
    · rintro ⟨_, _, ⟨⟨_, _, same⟩, typed⟩, rfl⟩
      cases same
      exact typed
    · intro typed
      exact ⟨function, some type, ⟨⟨function, lt_of_functionType typed, by rw [typed]⟩, rfl⟩, rfl⟩

namespace Lowering

open Machine hiding Instruction
open Typing TwinEngine.Normal
open List (mem_map mem_singleton mem_cons not_mem_nil map_cons map_nil mem_append)

/-! ## Actions and the instructions that they stem from -/

/-- A call or a write of a global stems from an instruction and names what it names. -/
def Stems (context : Context) (signatures : Array FunctionType) (instr : Normalized) :
    Action → Prop
  | .call callee function signature =>
    ∃ index type, callee = .unit ∧ instr = .call index ∧ function = UInt32.ofNat index ∧
      context.source.functionType index = some type ∧ Pooled signatures signature type
  | .callIndirect typeOperand tableOperand signature =>
    ∃ typeIndex table type, instr = .callIndirect typeIndex table ∧
      typeOperand = UInt32.ofNat typeIndex ∧ tableOperand = UInt32.ofNat table ∧
      context.source.types[typeIndex]? = some type ∧ Pooled signatures signature type
  | .globalSet width operand =>
    ∃ index global, instr = .operator (.globalSet index) ∧ operand = UInt32.ofNat index ∧
      context.source.globals[index]? = some global ∧ width = widthOf global.kind
  | _ => True

section Stems

variable {context : Context} {signatures : Array FunctionType} {scratch : Option UInt16}
  {instr : Normalized} {segment : Segment}

theorem stems_of_operatorActions {operator : Operator}
    (found : operatorActions context operator = some actions) (member : action ∈ actions) :
    Stems context signatures (.operator operator) action := by
  cases operator with
  | globalSet index =>
    obtain ⟨global, declared, rfl⟩ := Option.map_eq_some_iff.mp found
    rw [mem_singleton] at member
    subst member
    exact ⟨index, global, rfl, rfl, declared, rfl⟩
  | localGet | localSet | globalGet =>
    obtain ⟨_, _, rfl⟩ := Option.map_eq_some_iff.mp found
    rw [mem_singleton] at member
    subst member
    trivial
  | load kind offset =>
    cases found
    unfold loadActions at member
    split at member <;> simp only [mem_cons, not_mem_nil, or_false] at member
    · subst member
      trivial
    · rcases member with rfl | rfl <;> trivial
  | store kind offset =>
    cases found
    unfold storeActions at member
    split at member <;> simp only [mem_cons, not_mem_nil, or_false] at member
    · subst member
      trivial
    · rcases member with rfl | rfl | rfl <;> trivial
  | constant value =>
    cases value <;> cases found <;> rw [mem_singleton] at member <;> subst member <;> trivial
  | _ => cases found <;> rw [mem_singleton] at member <;> subst member <;> trivial

theorem stems_of_unboxing (member : action ∈ unboxing type signature) :
    Stems context signatures instr action := by
  unfold unboxing at member
  split at member
  · rw [mem_singleton] at member
    subst member
    trivial
  · cases member

theorem Lowers.stems (lowers : Lowers context signatures scratch instr segment)
    (member : .plain action ∈ segment) : Stems context signatures instr action := by
  have single {other : Action} (same : segment = plain [other])
      (harmless : Stems context signatures instr other) :
      Stems context signatures instr action := by
    subst same
    simp only [plain, map_cons, map_nil, mem_singleton, plain.injEq] at member
    exact member ▸ harmless
  have polled {jump : Machine.Instruction Nat} (polls : Polled segment jump)
      (jumps : ∀ other, jump ≠ .plain other) : Stems context signatures instr action := by
    rcases polls with rfl | rfl
    · rw [mem_singleton] at member
      exact absurd member.symm (jumps _)
    · rcases mem_cons.mp member with same | last
      · cases same
        trivial
      · rw [mem_singleton] at last
        exact absurd last.symm (jumps _)
  cases instr with
  | label =>
    cases lowers
    cases member
  | goto | ifZero | ifNonzero => exact polled lowers (fun _ => by simp)
  | switch => exact polled lowers.2 (fun _ => by simp)
  | dropKeep drop =>
    simp only [Lowers] at lowers
    split at lowers
    · subst lowers
      cases member
    · exact single lowers.2.2 trivial
  | leave =>
    simp only [Lowers] at lowers
    split at lowers
    · obtain ⟨signature, _, rfl⟩ := lowers
      simp only [plain, map_cons, map_nil, mem_cons, not_mem_nil, or_false,
        plain.injEq] at member
      rcases member with rfl | rfl <;> trivial
    · exact single lowers trivial
  | trap | drop | select => exact single lowers trivial
  | localTee =>
    obtain ⟨_, slot, _, rfl⟩ := lowers
    simp only [plain, map_cons, map_nil, mem_cons, not_mem_nil, or_false,
      plain.injEq] at member
    rcases member with rfl | rfl <;> trivial
  | call function =>
    obtain ⟨type, signature, typed, pooled, rfl⟩ := lowers
    simp only [plain, mem_map, plain.injEq, exists_eq_right] at member
    rcases mem_append.mp member with early | late
    · rcases mem_append.mp early with boxes | calls
      · unfold boxing at boxes
        split at boxes
        · cases boxes
        · rw [mem_singleton] at boxes
          subst boxes
          trivial
      · simp only [mem_cons, not_mem_nil, or_false] at calls
        rcases calls with rfl | rfl
        · trivial
        · exact ⟨function, type, rfl, rfl, rfl, typed, pooled⟩
    · exact stems_of_unboxing late
  | callIndirect typeIndex table =>
    obtain ⟨type, signature, boxes, typed, pooled, boxed, rfl⟩ := lowers
    simp only [plain, mem_map, plain.injEq, exists_eq_right] at member
    rcases mem_append.mp member with early | late
    · rcases mem_append.mp early with first | calls
      · unfold Boxes at boxed
        split at boxed
        · subst boxed
          cases first
        · obtain ⟨slot, _, rfl⟩ := boxed
          simp only [mem_cons, not_mem_nil, or_false] at first
          rcases first with rfl | rfl | rfl <;> trivial
      · simp only [mem_cons, not_mem_nil, or_false] at calls
        rcases calls with rfl | rfl
        · trivial
        · exact ⟨typeIndex, table, type, rfl, rfl, rfl, typed, pooled⟩
    · exact stems_of_unboxing late
  | operator operator =>
    obtain ⟨_, found, rfl⟩ := lowers
    simp only [plain, mem_map, plain.injEq, exists_eq_right] at member
    exact stems_of_operatorActions found member

/-- Nothing that stems from an instruction stands in front of the body's code. -/
theorem Prologue.stems (prologue : Prologue context signatures actions)
    (member : action ∈ actions) : Stems context signatures instr action := by
  obtain ⟨_, unpacks, rfl⟩ := prologue
  have stores : ∀ count, action ∈ paramStores context count →
      Stems context signatures instr action := by
    intro count
    induction count with
    | zero =>
      intro inside
      cases inside
    | succ count ih =>
      intro inside
      rcases mem_append.mp inside with here | later
      · obtain ⟨entry, _, rfl⟩ := Option.map_eq_some_iff.mp (Option.mem_toList.mp here)
        trivial
      · exact ih later
  rcases mem_append.mp member with early | late
  · unfold Unpacks at unpacks
    split at unpacks
    · subst unpacks
      cases early
    · obtain ⟨_, _, rfl⟩ := unpacks
      rcases mem_cons.mp early with rfl | early
      · trivial
      · rcases mem_cons.mp early with rfl | early
        · trivial
        · exact stores _ early
  · obtain ⟨entry, _, inside⟩ := List.mem_flatMap.mp late
    split at inside
    · simp only [mem_cons, not_mem_nil, or_false] at inside
      rcases inside with rfl | rfl <;> trivial
    · cases inside

end Stems

/-! ## Instructions and the operators that they stem from -/

def isDrawn : Normalized → Bool
  | .call _ | .callIndirect .. | .operator _ => true
  | _ => false

def Drawn (instr : Normalized) (operator : Operator) : Prop :=
  match instr with
  | .call function => operator = .call function ∨ operator = .tailCall function
  | .callIndirect typeIndex table =>
    operator = .callIndirect table typeIndex ∨ operator = .tailCallIndirect table typeIndex
  | .operator own => operator = own
  | _ => True

variable {instr : Normalized} {body : Body} {shapes : Nat → Option Shape}

theorem not_mem_stubsCode (drawn : isDrawn instr = true) (stubs : List Stub) (label : Nat) :
    instr ∉ stubsCode label stubs := by
  induction stubs generalizing label with
  | nil => exact not_mem_nil
  | cons _ _ ih =>
    intro member
    simp only [stubsCode, mem_cons] at member
    rcases member with rfl | rfl | rfl | later
    · cases drawn
    · cases drawn
    · cases drawn
    · exact ih _ later

theorem not_mem_unwind (drawn : isDrawn instr = true) (own carried : List ValueKind) :
    instr ∉ (unwind own carried).toList := by
  intro member
  unfold unwind at member
  split at member
  · cases member
  · rw [Option.toList_some, mem_singleton] at member
    subst member
    cases drawn

theorem exists_of_mem_layout (layout : Layout type body shapes) (drawn : isDrawn instr = true)
    (member : instr ∈ layout.code) :
    ∃ index shape origin, shapes index = some shape ∧ body.instructions[index]? = some origin ∧
      Drawn instr origin.operator := by
  have inside : instr ∈ layout.before body.instructions.size := by
    rcases mem_append.mp member with early | last
    · exact early
    · rw [mem_singleton] at last
      subst last
      cases drawn
  obtain ⟨index, below, part⟩ := List.mem_flatMap.mp inside
  rw [List.mem_range] at below
  have piece : instr ∈ layout.pieces index := by
    unfold Layout.part mark at part
    rcases mem_append.mp part with label | piece
    · split at label
      · rw [mem_singleton] at label
        subst label
        cases drawn
      · cases label
    · exact piece
  cases shaped : shapes index with
  | none =>
    rw [(layout.dead below shaped).1] at piece
    cases piece
  | some shape =>
    have here := Array.getElem?_eq_getElem below
    have cut := layout.live shaped here
    generalize body.instructions[index] = origin at here cut
    refine ⟨index, shape, origin, shaped, here, ?_⟩
    generalize layout.pieces index = code at piece cut
    have single {other : Normalized} (same : code = [other])
        (stands : isDrawn other = true → Drawn other origin.operator) :
        Drawn instr origin.operator := by
      subst same
      rw [mem_singleton] at piece
      subst piece
      exact stands drawn
    have goes {own carried : List ValueKind} {target : Nat}
        (same : code = (unwind own carried).toList ++ [.goto target]) :
        Drawn instr origin.operator := by
      subst same
      rcases mem_append.mp piece with unwinds | last
      · exact absurd unwinds (not_mem_unwind drawn _ _)
      · rw [mem_singleton] at last
        subst last
        cases drawn
    unfold Piece at cut
    split at cut
    · obtain ⟨_, _, ⟨_, _, _, _, _, _, _, _, rfl⟩ | ⟨_, _, _, _, rfl⟩⟩ := cut
      · rcases mem_cons.mp piece with rfl | later
        · cases drawn
        · rcases mem_append.mp later with unwinds | last
          · exact absurd unwinds (not_mem_unwind drawn _ _)
          · rw [mem_singleton] at last
            subst last
            cases drawn
      · rcases mem_cons.mp piece with rfl | later
        · cases drawn
        · exact absurd later (not_mem_stubsCode drawn _ _)
    · obtain ⟨_, cut⟩ := cut
      split at cut
      case h_1 | h_2 | h_3 | h_4 =>
        subst cut
        cases piece
      case h_5 | h_10 => exact single cut fun drawn => by cases drawn
      case h_6 | h_7 =>
        obtain ⟨_, _, cut⟩ := cut
        exact single cut fun drawn => by cases drawn
      case h_8 =>
        obtain ⟨_, _, _, _, _, cut⟩ := cut
        exact goes cut
      case h_9 =>
        obtain ⟨_, _, _, _, _, _, _, rfl⟩ := cut
        split at piece
        · rw [mem_singleton] at piece
          subst piece
          cases drawn
        · rename_i dropped
          simp only [mem_cons, not_mem_nil, or_false] at piece
          rcases piece with rfl | rfl | rfl
          · cases drawn
          · exact absurd (Option.mem_toList.mpr dropped) (not_mem_unwind drawn _ _)
          · cases drawn
      case h_11 | h_12 => exact single cut fun _ => .inl (by assumption)
      case h_13 | h_14 =>
        subst cut
        simp only [mem_cons, not_mem_nil, or_false] at piece
        rcases piece with rfl | rfl
        · exact .inr (by assumption)
        · cases drawn
      case h_15 | h_16 | h_17 | h_18 =>
        obtain ⟨_, _, _, cut⟩ := cut
        exact single cut fun drawn => by cases drawn
      case h_19 => exact single cut fun _ => rfl

/-! ## What the code of units refers to -/

/-- The operands of a call through a table in the code of a unit. -/
structure CallsThrough (source : Module) (unit : LoadedUnit)
    (typeOperand tableOperand : UInt32) (signature : UInt16) (type : FunctionType) : Prop where
  expects : source.types[typeOperand.toNat]? = some type
  pooled : Pooled unit.signatures signature type
  table : ∃ kind, source.tables[tableOperand.toNat]? = some kind ∧ kind.element = .funcRef

/-- The operands of a direct call in the code of a unit. -/
structure CallsDirectly (source : Module) (unit : LoadedUnit) (callee : Callee)
    (function : UInt32) (signature : UInt16) (type : FunctionType) : Prop where
  declared : source.functionType function.toNat = some type
  pooled : Pooled unit.signatures signature type
  imported : callee = .imported → function.toNat < source.importCount
  defined : callee = .interpreted → source.importCount ≤ function.toNat

def Links (source : Module) (unit : LoadedUnit) : Action → Prop
  | .call callee function signature =>
    ∃ type, CallsDirectly source unit callee function signature type
  | .callIndirect typeOperand tableOperand signature =>
    ∃ type, CallsThrough source unit typeOperand tableOperand signature type
  | .globalSet width operand =>
    ∃ global, source.globals[operand.toNat]? = some global ∧ global.kind.slots = width.slots
  | _ => True

theorem tables_of_fits {instr : TwinEngine.Instruction}
    (fits : Fits source type body shapes index shape instr)
    (calls : Drawn (.callIndirect typeIndex table) instr.operator) :
    ∃ callee kind, source.types[typeIndex]? = some callee ∧ source.tables[table]? = some kind ∧
      kind.element = .funcRef := by
  have flow := fits.flow
  rcases calls with same | same
  · simp only [OperatorFlow, same] at flow
    obtain ⟨_, _, _, ⟨callee, kind, found, tableFound, element, _⟩, _⟩ := flow
    exact ⟨callee, kind, found, tableFound, element⟩
  · simp only [OperatorFlow, same] at flow
    obtain ⟨_, callee, kind, _, found, tableFound, element, _⟩ := flow
    exact ⟨callee, kind, found, tableFound, element⟩

section Links

variable {source : Module} {type : FunctionType} {body : Body} {shapes : Nat → Option Shape}
  {unit : LoadedUnit} {function position : Nat} {action : Action}
  (fitted : Binary.Fitted source)

include fitted

section

variable (bodyTyped : BodyTyped source type body shapes)
  (bodyFound : source.body function = some body)

include bodyTyped bodyFound

theorem links_of_stems (layout : Layout type body shapes) (same : context.source = source)
    (member : instr ∈ layout.code)
    (stems : Stems context unit.signatures instr action) : Links source unit action := by
  have exact_ {value : Nat} (small : value < 2 ^ 32) : (UInt32.ofNat value).toNat = value :=
    UInt32.toNat_ofNat_of_lt' small
  subst same
  cases action with
  | call _ operand signature =>
    obtain ⟨index, type, rfl, _, rfl, declared, pooled⟩ := stems
    have small := Nat.lt_trans (Module.lt_of_functionType declared) fitted.functions
    refine ⟨type, by rw [exact_ small, declared], pooled, ?_, ?_⟩ <;> intro other <;> cases other
  | callIndirect _ _ signature =>
    obtain ⟨typeIndex, table, type, rfl, rfl, rfl, typed, pooled⟩ := stems
    obtain ⟨index, shape, origin, shaped, found, drawn⟩ := exists_of_mem_layout layout rfl member
    obtain ⟨_, equal, fits⟩ := bodyTyped.fits shaped
    cases found.symm.trans equal
    obtain ⟨_, kind, _, tableFound, element⟩ := tables_of_fits fits drawn
    have narrow := fitted.operators bodyFound found
    have small : table < 2 ^ 32 ∧ typeIndex < 2 ^ 32 := by
      rcases drawn with same | same <;>
        simpa [Binary.Narrow, Binary.operands, same] using narrow
    refine ⟨type, ?_, pooled, kind, ?_, element⟩
    · rw [exact_ small.2, typed]
    · rw [exact_ small.1, tableFound]
  | globalSet _ operand =>
    obtain ⟨place, global, rfl, rfl, declared, rfl⟩ := stems
    obtain ⟨index, shape, origin, _, found, drawn⟩ := exists_of_mem_layout layout rfl member
    have narrow := fitted.operators bodyFound found
    have same : origin.operator = .globalSet place := drawn
    have small : place < 2 ^ 32 := by
      simpa [Binary.Narrow, Binary.operands, same] using narrow
    refine ⟨global, ?_, (slots_widthOf global.kind).symm⟩
    rw [exact_ small, declared]
  | _ => trivial

theorem Translation.links (translation : Translation source type body shapes unit)
    (here : unit.code[position]? = some (.plain action)) : Links source unit action := by
  obtain ⟨layout, context, rfl, rfl, _, assembly⟩ := translation
  have member : .plain action ∈ plain assembly.first ++ assembly.segments.flatten := by
    rw [← Array.getElem?_toList, assembly.code_eq, List.getElem?_map] at here
    obtain ⟨instr, found, same⟩ := Option.map_eq_some_iff.mp here
    cases instr with
    | plain action =>
      cases same
      exact List.mem_of_getElem? found
    | jump | switch => cases same
  have last : .leave context.signature.results ∈ layout.code :=
    List.mem_append_right _ List.mem_cons_self
  rcases mem_append.mp member with early | late
  · have first : action ∈ assembly.first := by simpa [plain] using early
    exact links_of_stems fitted bodyTyped bodyFound layout rfl last (assembly.prologue.stems first)
  · obtain ⟨_, listed, inside⟩ := List.mem_flatten.mp late
    obtain ⟨place, placed⟩ := List.mem_iff_getElem?.mp listed
    have below : place < layout.code.length := by
      rw [← assembly.length]
      exact lt_length placed
    exact links_of_stems fitted bodyTyped bodyFound layout rfl (List.getElem_mem below)
      ((assembly.lowers (List.getElem?_eq_getElem below) placed).stems inside)

end

theorem Delegates.links (delegates : Delegates unit function type callee)
    (declared : source.functionType function = some type)
    (imported : callee = .imported → function < source.importCount)
    (defined : callee = .interpreted → source.importCount ≤ function)
    (here : unit.code[position]? = some (.plain action)) : Links source unit action := by
  have small := Nat.lt_trans (Module.lt_of_functionType declared) fitted.functions
  have exact_ : (UInt32.ofNat function).toNat = function := UInt32.toNat_ofNat_of_lt' small
  obtain ⟨_, pooled, code⟩ := delegates.code
  rw [← Array.getElem?_toList, code] at here
  have member := List.mem_of_getElem? here
  simp only [plain, delegating, mem_map, plain.injEq, exists_eq_right]
    at member
  rcases mem_append.mp member with loads | ends
  · have loading : ∀ count slot, action ∈ forwarding count slot → Links source unit action := by
      intro count slot inside
      fun_induction forwarding count slot with
      | case1 => cases inside
      | case2 =>
        rw [mem_singleton] at inside
        subst inside
        trivial
      | case3 count slot ih =>
        rcases mem_cons.mp inside with rfl | later
        · trivial
        · exact ih later
    exact loading _ _ loads
  · simp only [mem_cons, not_mem_nil, or_false] at ends
    rcases ends with rfl | rfl
    · exact ⟨type, by rw [exact_, declared], pooled, by rwa [exact_], by rwa [exact_]⟩
    · trivial

end Links

/-- The units of a program refer to what the module declares. -/
theorem Runnable.links (valid : Validation.sectionsValid sections = true)
    (describes : Describes sections source) (fitted : Binary.Fitted source)
    (runnable : Runnable source sections program) {position : Nat}
    (found : program.units[function]? = some unit)
    (here : unit.code[position]? = some (.plain action)) : Links source unit action := by
  have inside : function < source.functionCount := by
    rw [← runnable.units]
    exact lt_size found
  obtain ⟨_, _, same, _, _, stands⟩ := runnable.stands inside
  cases found.symm.trans same
  cases stands with
  | compiled typeFound bodyFound _ translation =>
    obtain ⟨translation⟩ := translation
    exact translation.links fitted (bodyTyped_predicted describes valid typeFound bodyFound)
      bodyFound here
  | interpreted typeFound bodyFound delegates =>
    refine delegates.links fitted typeFound (fun other => by cases other) (fun _ => ?_) here
    unfold Module.body at bodyFound
    split at bodyFound
    · cases bodyFound
    · rename_i above
      exact Nat.le_of_not_lt above
  | imported typeFound below delegates =>
    exact delegates.links fitted typeFound (fun _ => below) (fun other => by cases other) here

end Lowering

end TwinEngine
