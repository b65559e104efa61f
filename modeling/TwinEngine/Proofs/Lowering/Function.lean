import TwinEngine.Proofs.Lowering.Depths
import TwinEngine.Proofs.Normal.Analysis
import TwinEngine.Proofs.Typing.Module

/-!
Contract: the units of the functions of valid modules.

Owns: that every defined function of a module that was read is analyzed, that what it is analyzed to
defines each label that it jumps to once, and that this is lowered to a unit unless it is too large
or refused; and what stands in such a unit.
-/

namespace TwinEngine.Lowering

open Machine hiding Instruction
open TwinEngine.Normal Typing

/-! ## Typed code is lowered -/

section Lowerable

variable {context : Context} {locals : List ValueKind}

variable (size : context.locals.size = locals.length)

include size

theorem exists_operatorActions {operator : Operator} (simple : isSimple operator = true)
    (effect : Validation.Effect context.source locals params results operator) :
    (operatorActions context operator).isSome := by
  cases operator with
  | localGet index =>
    obtain ⟨kind, found, _⟩ := effect
    have below := lt_length found
    rw [← size] at below
    simp [operatorActions_localGet, Array.getElem?_eq_getElem below]
  | localSet index =>
    obtain ⟨kind, found, _⟩ := effect
    have below := lt_length found
    rw [← size] at below
    simp [operatorActions_localSet, Array.getElem?_eq_getElem below]
  | globalGet index =>
    obtain ⟨global, found, _⟩ := effect
    simp [operatorActions_globalGet, found]
  | globalSet index =>
    obtain ⟨global, found, _⟩ := effect
    simp [operatorActions_globalSet, found]
  | constant value => cases value <;> rfl
  | _ => first | rfl | cases simple

theorem lowerable_of_flow {instr : Normalized}
    (flow : CodeFlow context.source type locals there on stack instr) :
    Lowerable context instr := by
  cases instr with
  | localTee _ kind =>
    obtain ⟨found, _⟩ := flow
    have below := lt_length found
    rwa [← size] at below
  | call =>
    obtain ⟨callee, rest, typed, _⟩ := flow
    simp [Lowerable, typed]
  | callIndirect =>
    obtain ⟨callee, kind, rest, typed, _⟩ := flow
    exact lt_size typed
  | operator operator =>
    obtain ⟨simple, _, _, rest, effect, _⟩ := flow
    exact exists_operatorActions size simple effect
  | _ => trivial

end Lowerable

variable {function : Nat}

section Function

variable {source : Module} {type : FunctionType} {body : Body} {shapes : Nat → Option Shape}

theorem lowerable_of_layout (typed : BodyTyped source type body shapes)
    (layout : Layout type body shapes) (sameSource : context.source = source)
    (size : context.locals.size = (type.params ++ body.locals).length) :
    ∀ instr ∈ layout.code, Lowerable context instr := by
  intro instr member
  obtain ⟨_, pieces⟩ := layout.exists_piecesTyped typed
  rcases layout.exists_kinds pieces member with ⟨_, rfl⟩ | ⟨_, _, known, found⟩
  · trivial
  · obtain ⟨_, here, flow⟩ := (layout.codeTyped pieces typed).flow known
    cases found.symm.trans here
    subst sameSource
    exact lowerable_of_flow size flow

/-- A loaded unit that stands for a body: its layout in normalized code and the assembly of that. -/
structure Translation (source : Module) (type : FunctionType) (body : Body)
    (shapes : Nat → Option Shape) (unit : LoadedUnit) where
  layout : Layout type body shapes
  context : Context
  source_eq : context.source = source
  signature_eq : context.signature = type
  frame : FrameLayout (type.params ++ body.locals) context.locals context.frameSlots
  assembly : Assembly context layout.code unit

theorem Translation.fitting (typed : ModuleTyped source)
    (translation : Translation source type body shapes unit) :
    Fitting translation.context (type.params ++ body.locals) translation.assembly.scratch unit := by
  refine ⟨translation.frame, translation.assembly.slots, translation.assembly.signature, ?_⟩
  intro _ _ found
  rw [translation.source_eq] at found
  exact (typed.tables found).1

theorem Translation.exists_tracked (typed : ModuleTyped source)
    (bodyTyped : BodyTyped source type body shapes)
    (translation : Translation source type body shapes unit) : ∃ stances, Tracked unit stances := by
  have fitting := translation.fitting typed
  obtain ⟨layout, _, rfl, rfl, _, assembly⟩ := translation
  obtain ⟨_, pieces⟩ := layout.exists_piecesTyped bodyTyped
  have ⟨stances, tracked, _⟩ := Lowering.exists_tracked assembly fitting rfl
    (layout.codeTyped pieces bodyTyped)
    fun _ member _ jumps => layout.count_label bodyTyped member jumps
  exact ⟨stances, tracked⟩

/-- The unit of a function, before it is finished: its labels stand for instructions if these are
near enough, and its loaded form is a translation that passes the check. -/
theorem emitted_layout (bodyTyped : BodyTyped source type body shapes)
    (typeFound : source.functionType function = some type)
    (bodyFound : source.body function = some body) (layout : Layout type body shapes) :
    (∃ context emitter, emitted source function layout.code = .ok (context, emitter) ∧
      context.signature = type ∧
      ((emitter.size < 2 ^ 31 ∨ ∃ resolved, emitter.resolveFixups = .ok resolved) →
        ∃ labelled place, emitter.Places labelled place ∧
          (emitter.size < 2 ^ 31 → Narrow labelled place) ∧
          ∀ maxStack, Nonempty (Translation source type body shapes (loadedUnit emitter
            (labelled.map (Machine.Instruction.retarget (indexOf place))) type maxStack)))) ∨
    ∃ error, emitted source function layout.code = .error error ∧ Refusal error := by
  rcases emitted_outcome typeFound bodyFound
    fun context _ sameSource size => lowerable_of_layout bodyTyped layout sameSource size with
    ⟨context, emitter, made, sameSource, sameType, frame, ⟨emission⟩⟩ | refused
  · refine .inl ⟨context, emitter, made, sameType, fun near => ?_⟩
    obtain ⟨labelled, place, places, narrow, assembled⟩ := emission.exists_assembly
      (emission.labelled_of_once fun _ member _ jumps => layout.count_label bodyTyped member jumps)
      ⟨_, _, rfl⟩ near
    refine ⟨labelled, place, places, narrow, fun maxStack => ?_⟩
    rw [sameType] at assembled
    obtain ⟨assembly, _⟩ := assembled maxStack
    exact ⟨layout, context, sameSource, sameType, frame, assembly⟩
  · exact .inr refused

section

variable (typed : ModuleTyped source) (bodyTyped : BodyTyped source type body shapes)

include typed bodyTyped

theorem Translation.exists_verify (translation : Translation source type body shapes unit) :
    ∃ greatest, unit.verify = .ok greatest := by
  obtain ⟨_, tracked⟩ := translation.exists_tracked typed bodyTyped
  exact tracked.verify_eq_ok

/-- Lowering a layout of a body whose code is short gives a unit, finds it too large or refuses. -/
theorem function_outcome (typeFound : source.functionType function = some type)
    (bodyFound : source.body function = some body) (layout : Layout type body shapes)
    (short : ∀ context emitter, emitted source function layout.code = .ok (context, emitter) →
      emitter.size < 2 ^ 31) (limit : Nat) :
    (∃ unit, Lowering.function source function layout.code limit = .ok unit) ∨
    ∃ error, Lowering.function source function layout.code limit = .error error ∧
      (Refusal error ∨ ∃ index size, error = .codeTooLarge index size limit) := by
  rw [function_eq]
  rcases emitted_layout bodyTyped typeFound bodyFound layout with
    ⟨context, emitter, made, sameType, translated⟩ | ⟨error, failed, refusal⟩
  · have short := short context emitter made
    obtain ⟨_, _, places, narrow, translations⟩ := translated (.inl short)
    obtain ⟨translation⟩ := translations 0
    obtain ⟨_, verified⟩ := translation.exists_verify typed bodyTyped
    simp only [made, bind, Except.bind]
    rw [finish_eq places (narrow short), sameType]
    split
    · exact .inr ⟨_, rfl, .inr ⟨_, _, rfl⟩⟩
    · rw [verified]
      exact .inl ⟨_, rfl⟩
  · simp only [failed, bind, Except.bind]
    exact .inr ⟨error, rfl, .inl refusal⟩

end

variable {limit : Nat} {unit : CodeUnit}

/-- The unit of a function is loaded as a translation that passes the check with the depth that is
written on it. -/
theorem exists_translation (bodyTyped : BodyTyped source type body shapes)
    (typeFound : source.functionType function = some type)
    (bodyFound : source.body function = some body) (layout : Layout type body shapes)
    (lowered : Lowering.function source function layout.code limit = .ok unit) :
    ∃ loaded, unit.load = .ok loaded ∧ loaded.verify = .ok loaded.maxStack ∧
      loaded.signature = type ∧ Nonempty (Translation source type body shapes loaded) := by
  rw [function_eq] at lowered
  rcases emitted_layout bodyTyped typeFound bodyFound layout with
    ⟨context, emitter, made, sameType, translated⟩ | ⟨error, failed, refusal⟩
  · simp only [made, bind, Except.bind] at lowered
    obtain ⟨_, resolved, _⟩ := bind_eq_ok.mp lowered
    obtain ⟨_, _, places, _, translations⟩ := translated (.inr ⟨_, resolved⟩)
    rw [sameType] at lowered
    obtain ⟨greatest, loaded, verified⟩ := load_of_finish places lowered
    exact ⟨_, loaded, (LoadedUnit.verify_maxStack _ greatest).trans verified, rfl,
      translations greatest⟩
  · simp only [failed, bind, Except.bind] at lowered
    cases lowered

end Function

/-! ## Functions of modules that were read -/

theorem exists_body (typed : ModuleTyped source) (defined : source.importCount ≤ function)
    (inside : function < source.functionCount) :
    ∃ type body shapes, source.functionType function = some type ∧
      source.body function = some body ∧ BodyTyped source type body shapes := by
  obtain ⟨type, body, typeFound, bodyFound⟩ := typed.exists_body defined inside
  obtain ⟨shapes, bodyTyped⟩ := typed.bodies typeFound bodyFound
  exact ⟨type, body, shapes, typeFound, bodyFound, bodyTyped⟩

/-- Every defined function of a module is analyzed to code that defines each label that it jumps to
once. Lowering that code gives a unit, finds it too large or refuses it, unless what it emits takes
2^31 bytes or more. -/
theorem analyze_lower_outcome {bytes : List UInt8} {sections : Binary.Sections} {source : Module}
    (core : Binary.Sections.ofBytes? bytes = some sections)
    (parsed : Module.parse bytes = .ok source) {function : Nat}
    (defined : source.importCount ≤ function) (inside : function < source.functionCount) :
    ∃ code, source.analyze function = .ok code ∧
      (∀ instr ∈ code, ∀ target ∈ instr.targets, code.count (.label target) = 1) ∧
      ((∀ context emitter, emitted source function code.toList = .ok (context, emitter) →
          emitter.size < 2 ^ 31) →
        ∀ limit,
          (∃ unit, Lowering.function source function code.toList limit = .ok unit) ∨
          ∃ error, Lowering.function source function code.toList limit = .error error ∧
            (Refusal error ∨ ∃ index size, error = .codeTooLarge index size limit)) := by
  obtain ⟨valid, describes⟩ := describes_of_parse core parsed
  have typed := moduleTyped_of_valid describes valid
  obtain ⟨type, body, shapes, typeFound, bodyFound, bodyTyped⟩ := exists_body typed defined inside
  obtain ⟨layout, analyzed⟩ := analyze_eq_ok typeFound bodyFound bodyTyped
  refine ⟨_, analyzed, ?_, ?_⟩
  · intro instr member target jumps
    rw [List.count_toArray]
    exact layout.count_label bodyTyped (List.mem_toArray.mp member) jumps
  · intro short limit
    exact function_outcome typed bodyTyped typeFound bodyFound layout short limit

/-- A module with a function of two results, and one that calls it and unwinds in a branch table. -/
def branchTableBytes : List UInt8 :=
  [0x00, 0x61, 0x73, 0x6d, 0x01, 0x00, 0x00, 0x00,
    0x01, 0x0b, 0x02, 0x60, 0x00, 0x02, 0x7f, 0x7f, 0x60, 0x01, 0x7f, 0x01, 0x7f,
    0x03, 0x03, 0x02, 0x00, 0x01,
    0x0a, 0x16, 0x02, 0x06, 0x00, 0x41, 0x01, 0x41, 0x02, 0x0b,
    0x0d, 0x00, 0x02, 0x7f, 0x10, 0x00, 0x20, 0x00, 0x0e, 0x01, 0x00, 0x01, 0x0b, 0x0b]

theorem exists_branchTable :
    ∃ source code context emitter, Module.parse branchTableBytes = .ok source ∧
      source.importCount = 0 ∧ source.functionCount = 2 ∧ source.analyze 1 = .ok code ∧
      emitted source 1 code.toList = .ok (context, emitter) ∧ emitter.size = 48 := by
  obtain ⟨source, parsed, imports, functions, size⟩ := exists_ok (Module.parse branchTableBytes)
    (fun source => source.importCount = 0 ∧ source.functionCount = 2 ∧
      ((source.analyze 1).toOption.bind fun code =>
        (emitted source 1 code.toList).toOption.map fun made => made.2.size) = some 48)
    (by decide +kernel)
  obtain ⟨code, analyzed, size⟩ := Option.bind_eq_some_iff.mp size
  obtain ⟨⟨context, emitter⟩, made, size⟩ := Option.map_eq_some_iff.mp size
  exact ⟨source, code, context, emitter, parsed, imports, functions, ok_of_toOption analyzed,
    ok_of_toOption made, size⟩

theorem analyze_lower_outcome_branchTable :
    ∃ source code, Module.parse branchTableBytes = .ok source ∧ source.analyze 1 = .ok code ∧
      (∀ instr ∈ code, ∀ target ∈ instr.targets, code.count (.label target) = 1) ∧
      ((∃ unit, Lowering.function source 1 code.toList 65535 = .ok unit) ∨
        ∃ error, Lowering.function source 1 code.toList 65535 = .error error ∧
          (Refusal error ∨ ∃ index size, error = .codeTooLarge index size 65535)) := by
  obtain ⟨sections, core⟩ := Option.isSome_iff_exists.mp
    (by decide +kernel : (Binary.Sections.ofBytes? branchTableBytes).isSome = true)
  obtain ⟨source, code, _, _, parsed, _, _, analyzed, made, size⟩ := exists_branchTable
  obtain ⟨_, analyzed', once, outcome⟩ := analyze_lower_outcome core parsed
    (by omega : source.importCount ≤ 1) (by omega : 1 < source.functionCount)
  cases analyzed.symm.trans analyzed'
  refine ⟨source, code, parsed, analyzed, once, outcome ?_ 65535⟩
  intro context emitter made'
  cases made.symm.trans made'
  omega

end TwinEngine.Lowering
