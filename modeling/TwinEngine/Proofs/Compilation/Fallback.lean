import TwinEngine.Proofs.Compilation.Resolution

/-!
Contract: functions that outgrow the limit while they are lowered.

Owns: that such a function is left to the interpreter if lowering comes to its end, and fails the
compilation with what lowering refuses otherwise.

The size is held against the limit only once all code is emitted. So what is refused behind the
point where a function outgrew the limit is still refused.
-/

namespace TwinEngine.Module

open Machine (CodeUnit)
open Lowering (codeSize emitted Refusal)

section Outcome

variable {source : Module} {options : CompileOptions}

/-- Compilation succeeds, or the first function that fails decides. -/
theorem compile_outcome (valid : options.validate = .ok ())
    (listed : ∀ function ∈ options.interpreted, function < source.functionCount) :
    (∃ compiled, (source.compile options).outcome = .ok compiled) ∨
      ∃ function fault, function < source.functionCount ∧ (∀ earlier, earlier < function →
          ∃ result, source.compileFunction options earlier = .ok result) ∧
        source.compileFunction options function = .error fault ∧
        (source.compile options).outcome = .error fault := by
  classical
  by_cases fails : ∃ function, function < source.functionCount ∧
      ∃ fault, source.compileFunction options function = .error fault
  · obtain ⟨inside, fault, failed⟩ := Nat.find_spec fails
    have before : ∀ earlier, earlier < Nat.find fails →
        ∃ result, source.compileFunction options earlier = .ok result := by
      intro earlier below
      cases outcome : source.compileFunction options earlier with
      | ok result => exact ⟨result, rfl⟩
      | error cause =>
        exact absurd ⟨Nat.lt_trans below inside, cause, outcome⟩ (Nat.find_min fails below)
    exact .inr ⟨_, fault, inside, before, failed,
      compile_eq_error_of_first valid listed inside before failed⟩
  · refine .inl (compile_eq_ok_of_each valid listed fun function inside => ?_)
    cases outcome : source.compileFunction options function with
    | ok result => exact ⟨result, rfl⟩
    | error fault => exact absurd ⟨function, inside, fault, outcome⟩ fails

theorem compileFunction_refused (typeFound : source.functionType function = some type)
    (defined : source.importCount ≤ function) (empty : options.interpreted = [])
    (analyzed : source.analyze function = .ok code)
    (failed : emitted source function code.toList = .error fault) :
    source.compileFunction options function = .error fault := by
  have other := Lowering.not_tooLarge_of_emitted failed
  unfold compileFunction
  rw [typeFound]
  dsimp only
  rw [if_neg (Nat.not_lt.mpr defined), empty, if_neg (by simp), analyzed]
  simp only [bind, Except.bind]
  rw [Lowering.function_eq, failed]
  unfold fallBack
  split
  · rename_i absurd
    cases absurd
  · rename_i same
    cases same
    exact (other trivial).elim
  · rename_i same
    cases same
    rfl

end Outcome

section Core

variable {sections : Binary.Sections} {source : Module}
  (valid : Validation.sectionsValid sections = true) (describes : Typing.Describes sections source)
  {function : Nat} (defined : source.importCount ≤ function)
  (inside : function < source.functionCount)

include valid describes defined inside

theorem emits_or_refuses (analyzed : source.analyze function = .ok code) :
    (∃ context emitter, emitted source function code.toList = .ok (context, emitter) ∧
      (emitter.size < 2 ^ 31 → ∀ limit, source.Emits limit function)) ∨
    ∃ fault, emitted source function code.toList = .error fault ∧ Refusal fault := by
  have typed := Typing.moduleTyped_of_valid describes valid
  obtain ⟨_, _, _, typeFound, bodyFound, bodyTyped⟩ := Lowering.exists_body typed defined inside
  obtain ⟨layout, analyzed'⟩ := Normal.analyze_eq_ok typeFound bodyFound bodyTyped
  cases analyzed.symm.trans analyzed'
  rcases Lowering.emitted_layout bodyTyped typeFound bodyFound layout with
    ⟨context, emitter, made, sameType, translated⟩ | ⟨fault, failed, refusal⟩
  · refine .inl ⟨context, emitter, made, fun short limit => ⟨_, analyzed, ?_⟩⟩
    obtain ⟨_, _, places, narrow, translations⟩ := translated (.inl short)
    obtain ⟨translation⟩ := translations 0
    obtain ⟨_, verified⟩ := translation.exists_verify typed bodyTyped
    rw [Lowering.function_eq, made]
    simp only [bind, Except.bind]
    rw [Machine.finish_eq places (narrow short), sameType]
    split
    · exact .inr ⟨_, _, _, rfl⟩
    · rw [verified]
      exact .inl ⟨_, rfl⟩
  · exact .inr ⟨fault, failed, refusal⟩

end Core

/-- A defined function whose code is beyond the limit at some point of its lowering is left to the
interpreter by the policies that fall back, whatever becomes of the other functions, if lowering
comes to its end. Otherwise it fails with what lowering refuses behind that point. -/
theorem oversized_falls_back {bytes : List UInt8} {sections : Binary.Sections} {source : Module}
    (core : Binary.Sections.ofBytes? bytes = some sections)
    (parsed : Module.parse bytes = .ok source) {function : Nat}
    (defined : source.importCount ≤ function) (inside : function < source.functionCount)
    {options : CompileOptions} (allowed : options.fallback ≠ .fail)
    (empty : options.interpreted = []) (positive : 0 < options.maxCodeSize)
    {code : Array Normalized} (analyzed : source.analyze function = .ok code)
    {front back : List Normalized} (split : code.toList = front ++ back)
    {context : Lowering.Context} {emitter : Machine.Emitter}
    (early : emitted source function front = .ok (context, emitter))
    (large : options.maxCodeSize < emitter.size) :
    (∀ {last : Machine.Emitter}, emitted source function code.toList = .ok (context, last) →
      last.size < 2 ^ 31 →
      (∃ result, source.compileFunction options function = .ok result ∧
        result.resolution = .interpreted) ∧
      ((∃ compiled, (source.compile options).outcome = .ok compiled ∧
          compiled.resolutions[function]? = some .interpreted) ∨
        ∃ other fault, other ≠ function ∧ other < source.functionCount ∧
          (∀ earlier, earlier < other →
            ∃ result, source.compileFunction options earlier = .ok result) ∧
          source.compileFunction options other = .error fault ∧
          (source.compile options).outcome = .error fault)) ∧
    ∀ {fault : Error}, emitted source function code.toList = .error fault →
      Refusal fault ∧ source.compileFunction options function = .error fault := by
  obtain ⟨valid, describes⟩ := Typing.describes_of_parse core parsed
  obtain ⟨type, typeFound⟩ := exists_functionType parsed inside
  have outcome := emits_or_refuses valid describes defined inside analyzed
  constructor
  · intro last made short
    rcases outcome with ⟨_, _, made', emits⟩ | ⟨fault, failed, _⟩
    · rw [made] at made'
      cases made'
      have beyond : source.Oversized options.maxCodeSize function := by
        refine ⟨_, codeSize_eq analyzed made, ?_⟩
        rw [← (Lowering.emitted_size made).2]
        rw [split] at made
        exact Nat.lt_of_lt_of_le large (Lowering.grown_of_emitted early made).size_le
      have interprets : source.Interprets options function := ⟨defined, .inr ⟨allowed, beyond⟩⟩
      obtain ⟨result, compiles⟩ := compileFunction_fits typeFound
        (.inr (.inr ⟨emits short options.maxCodeSize, .inl allowed⟩))
      have resolved := (resolves_of_compileFunction compiles).interpreted_iff.mpr interprets
      refine ⟨⟨result, compiles, resolved⟩, ?_⟩
      have optionsValid : options.validate = .ok () := by
        simp [CompileOptions.validate, empty, Nat.ne_of_gt positive]
      rcases @compile_outcome source options optionsValid (by simp [empty]) with
        ⟨compiled, whole⟩ | ⟨other, fault, inside', before, failed, whole⟩
      · exact .inl ⟨compiled, whole, ((settled_of_compile whole).interpreted inside).mpr interprets⟩
      · refine .inr ⟨other, fault, ?_, inside', before, failed, whole⟩
        rintro rfl
        rw [compiles] at failed
        cases failed
    · rw [made] at failed
      cases failed
  · intro fault failed
    rcases outcome with ⟨_, _, made, _⟩ | ⟨_, failed', refusal⟩
    · rw [made] at failed
      cases failed
    · rw [failed] at failed'
      cases failed'
      exact ⟨refusal, compileFunction_refused typeFound defined empty analyzed failed⟩

theorem oversized_falls_back_branchTable :
    ∃ source code context emitter, Module.parse Lowering.branchTableBytes = .ok source ∧
      source.analyze 1 = .ok code ∧
      emitted source 1 code.toList = .ok (context, emitter) ∧ 40 < emitter.size ∧
      ∃ result, source.compileFunction ⟨.warn, [], 40⟩ 1 = .ok result ∧
        result.resolution = .interpreted := by
  obtain ⟨sections, core⟩ := Option.isSome_iff_exists.mp
    (by decide +kernel : (Binary.Sections.ofBytes? Lowering.branchTableBytes).isSome = true)
  obtain ⟨source, code, context, emitter, parsed, _, _, analyzed, made, size⟩ :=
    Lowering.exists_branchTable
  obtain ⟨falls, _⟩ := oversized_falls_back core parsed (by omega) (by omega)
    (by decide : (⟨.warn, [], 40⟩ : CompileOptions).fallback ≠ .fail) rfl (by decide)
    analyzed (List.append_nil _).symm made (by dsimp only; omega)
  exact ⟨source, code, context, emitter, parsed, analyzed, made, by omega,
    (falls made (by omega)).1⟩

end TwinEngine.Module
