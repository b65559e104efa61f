import Mathlib.Data.Nat.Find
import TwinEngine.Proofs.Binary.FunctionTypes
import TwinEngine.Proofs.Lowering.Sizes

/-!
Contract: what compilation decides for each function.

Owns: the resolution of every function of a compiled module, and when compilation fails for the sake
of size.

The decision rests on three things: whether the function is imported, whether it is listed, and how
many bytes its code takes. Policies differ only in what they make of a function that takes too many.
-/

namespace TwinEngine

open Machine (CodeUnit)
open Lowering (codeSize compile_eq_ok delegation delegation_eq_ok emitted exists_translation
  load_of_delegation program_of_load Runnable StandsFor)

namespace Module

def Oversized (source : Module) (limit function : Nat) : Prop :=
  ∃ size, codeSize source function = some size ∧ limit < size

instance (source : Module) (limit function : Nat) : Decidable (source.Oversized limit function) :=
  match found : codeSize source function with
  | none => .isFalse fun ⟨_, sized, _⟩ => by rw [found] at sized; cases sized
  | some size =>
    if large : limit < size then .isTrue ⟨size, found, large⟩
    else .isFalse fun ⟨other, sized, larger⟩ => by
      cases found.symm.trans sized
      exact large larger

/-- A defined function is left to the interpreter: it is listed, or it is too large and the policy
allows for it. -/
def Interprets (source : Module) (options : CompileOptions) (function : Nat) : Prop :=
  source.importCount ≤ function ∧
    (function ∈ options.interpreted ∨
      options.fallback ≠ .fail ∧ source.Oversized options.maxCodeSize function)

def Emits (source : Module) (limit function : Nat) : Prop :=
  ∃ code, source.analyze function = .ok code ∧
    ((∃ unit, Lowering.function source function code.toList limit = .ok unit) ∨
      ∃ index size bound, Lowering.function source function code.toList limit =
        .error (.codeTooLarge index size bound))

def Unfit (source : Module) (options : CompileOptions) (function : Nat) : Prop :=
  source.importCount ≤ function ∧ function < source.functionCount ∧
    function ∉ options.interpreted ∧ source.Oversized options.maxCodeSize function

def oversized (source : Module) (limit : Nat) : List Nat :=
  (List.range source.functionCount).filter fun function =>
    source.importCount ≤ function ∧ source.Oversized limit function

/-- The unit is the code of a function itself, as every limit that it keeps to gives it. -/
def OwnUnit (source : Module) (function : Nat) (unit : CodeUnit) : Prop :=
  codeSize source function = some unit.size ∧
    ∃ code, source.analyze function = .ok code ∧
      ∀ limit, unit.size ≤ limit → Lowering.function source function code.toList limit = .ok unit

/-- What compilation made of a function. -/
inductive Resolves (source : Module) (options : CompileOptions) (function : Nat)
    (unit : CodeUnit) : Resolution → Prop
  | host {type : FunctionType} : function < source.importCount →
      source.functionType function = some type →
      Lowering.delegation function type .imported maxCodeSize = .ok unit →
      Resolves source options function unit .host
  | interpreted {type : FunctionType} : source.Interprets options function →
      source.functionType function = some type →
      Lowering.delegation function type .interpreted maxCodeSize = .ok unit →
      Resolves source options function unit .interpreted
  | compiled : source.importCount ≤ function → ¬ source.Interprets options function →
      unit.size ≤ options.maxCodeSize → source.OwnUnit function unit →
      Resolves source options function unit .compiled

section Function

variable {source : Module} {options : CompileOptions} {function : Nat}

section

variable (analyzed : source.analyze function = .ok code)

include analyzed

theorem codeSize_eq (made : emitted source function code.toList = .ok (context, emitter)) :
    codeSize source function =
      some (emitter.instructions.toList.map Machine.Instruction.encodedLength).sum := by
  simp only [codeSize, analyzed, made]

theorem ownUnit_of_lowered
    (lowered : Lowering.function source function code.toList limit = .ok unit) :
    unit.function = function ∧ unit.size ≤ limit ∧ source.OwnUnit function unit := by
  obtain ⟨named, fits, ⟨_, _, made, size⟩, every⟩ := Lowering.function_eq_ok lowered
  refine ⟨named, fits, ?_, code, analyzed, every⟩
  rw [codeSize_eq analyzed made, size]

theorem oversized_of_tooLarge (failed : Lowering.function source function code.toList limit =
      .error (.codeTooLarge index size bound)) :
    bound = limit ∧ codeSize source function = some size ∧ limit < size := by
  obtain ⟨_, same, large, _, _, made, counted⟩ := Lowering.function_tooLarge failed
  exact ⟨same, by rw [codeSize_eq analyzed made, counted], large⟩

end

theorem OwnUnit.not_oversized (own : source.OwnUnit function unit) (fits : unit.size ≤ limit) :
    ¬ source.Oversized limit function := by
  rintro ⟨size, sized, _⟩
  cases own.1.symm.trans sized
  omega

theorem function_of_delegation (made : delegation function type callee maxCodeSize = .ok unit) :
    unit.function = function := by
  obtain ⟨_, same, named⟩ := delegation_eq_ok function type callee
  cases made.symm.trans same
  exact named

theorem Resolves.function_eq (resolves : Resolves source options function unit resolution) :
    unit.function = function := by
  cases resolves with
  | host _ _ made | interpreted _ _ made => exact function_of_delegation made
  | compiled _ _ _ own =>
    obtain ⟨_, _, analyzed, every⟩ := own
    exact (ownUnit_of_lowered analyzed (every unit.size (Nat.le_refl _))).1

theorem Resolves.host_iff (resolves : Resolves source options function unit resolution) :
    resolution = .host ↔ function < source.importCount := by
  cases resolves with
  | host imported => simp [imported]
  | interpreted interprets => simp [interprets.1]
  | compiled defined => simp [defined]

theorem Resolves.interpreted_iff (resolves : Resolves source options function unit resolution) :
    resolution = .interpreted ↔ source.Interprets options function := by
  cases resolves with
  | host imported => simp [Interprets, Nat.not_le.mpr imported]
  | interpreted interprets => simp [interprets]
  | compiled _ refused => simp [refused]

/-- What compiling one function gives is settled by the three questions. -/
theorem resolves_of_compileFunction (made : source.compileFunction options function = .ok result) :
    Resolves source options function result.unit result.resolution := by
  unfold compileFunction at made
  split at made
  · cases made
  · rename_i typeFound
    split at made
    · rename_i imported
      obtain ⟨unit, delegated, same⟩ := bind_eq_ok.mp made
      cases same
      exact .host imported typeFound delegated
    · rename_i defined
      have defined := Nat.not_lt.mp defined
      split at made
      · rename_i listed
        obtain ⟨unit, delegated, same⟩ := bind_eq_ok.mp made
        cases same
        exact .interpreted ⟨defined, .inl (List.contains_iff_mem.mp listed)⟩ typeFound delegated
      · rename_i unlisted
        obtain ⟨_, analyzed, made⟩ := bind_eq_ok.mp made
        unfold fallBack at made
        split at made
        · rename_i unit lowered
          cases made
          obtain ⟨_, fits, own⟩ := ownUnit_of_lowered analyzed lowered
          refine .compiled defined ?_ fits own
          rintro ⟨_, listed | ⟨_, large⟩⟩
          · exact unlisted (List.contains_iff_mem.mpr listed)
          · exact own.not_oversized fits large
        · rename_i size _ lowered
          obtain ⟨_, sized, large⟩ := oversized_of_tooLarge analyzed lowered
          split at made
          · cases made
          · rename_i allowed
            obtain ⟨unit, delegated, same⟩ := bind_eq_ok.mp made
            cases same
            exact .interpreted ⟨defined, .inr ⟨allowed, size, sized, large⟩⟩ typeFound delegated
        · cases made

/-- One answer to the three questions leaves one unit and one resolution. -/
theorem Resolves.unique (resolves : Resolves source options function unit resolution)
    (resolves' : Resolves source other function unit' resolution')
    (alike : source.Interprets options function ↔ source.Interprets other function) :
    unit = unit' ∧ resolution = resolution' := by
  cases resolves with
  | host imported typeFound made =>
    cases resolves' with
    | host _ typeFound' made' =>
      cases typeFound.symm.trans typeFound'
      cases made.symm.trans made'
      exact ⟨rfl, rfl⟩
    | interpreted interprets => exact absurd imported (Nat.not_lt.mpr interprets.1)
    | compiled defined => exact absurd imported (Nat.not_lt.mpr defined)
  | interpreted interprets typeFound made =>
    cases resolves' with
    | host imported => exact absurd imported (Nat.not_lt.mpr interprets.1)
    | interpreted _ typeFound' made' =>
      cases typeFound.symm.trans typeFound'
      cases made.symm.trans made'
      exact ⟨rfl, rfl⟩
    | compiled _ refused => exact absurd (alike.mp interprets) refused
  | compiled defined refused _ own =>
    cases resolves' with
    | host imported => exact absurd imported (Nat.not_lt.mpr defined)
    | interpreted interprets => exact absurd (alike.mpr interprets) refused
    | compiled _ _ _ own' =>
      refine ⟨?_, rfl⟩
      obtain ⟨sized, _, analyzed, every⟩ := own
      obtain ⟨sized', _, analyzed', every'⟩ := own'
      cases analyzed.symm.trans analyzed'
      rw [sized, Option.some.injEq] at sized'
      have made := every unit.size (Nat.le_refl _)
      rw [every' unit.size (Nat.le_of_eq sized'.symm)] at made
      cases made
      rfl

end Function

/-! ## Whole modules -/

section Compile

variable {source : Module} {options : CompileOptions} {compiled : CompiledModule}

theorem resolves_of_compile (made : (source.compile options).outcome = .ok compiled)
    (inside : function < source.functionCount) :
    ∃ unit resolution, compiled.units[function]? = some unit ∧
      compiled.resolutions[function]? = some resolution ∧
      Resolves source options function unit resolution := by
  obtain ⟨_, _, _, _, each⟩ := compile_eq_ok made
  obtain ⟨_, done, unitFound, resolutionFound⟩ := each function inside
  exact ⟨_, _, unitFound, resolutionFound, resolves_of_compileFunction done⟩

/-- Options that leave the same functions to the interpreter give one compiled module. -/
theorem compile_unique (made : (source.compile options).outcome = .ok compiled)
    (made' : (source.compile other).outcome = .ok compiled')
    (alike : ∀ function, function < source.functionCount →
      (source.Interprets options function ↔ source.Interprets other function)) :
    compiled = compiled' := by
  obtain ⟨sameSource, dispatch, units, resolutions, _⟩ := compile_eq_ok made
  obtain ⟨sameSource', dispatch', _⟩ := compile_eq_ok made'
  have each : ∀ function : Nat, compiled.units[function]? = compiled'.units[function]? ∧
      compiled.resolutions[function]? = compiled'.resolutions[function]? := by
    intro function
    by_cases inside : function < source.functionCount
    · obtain ⟨_, _, unitFound, found, resolves⟩ := resolves_of_compile made inside
      obtain ⟨_, _, unitFound', found', resolves'⟩ := resolves_of_compile made' inside
      obtain ⟨rfl, rfl⟩ := resolves.unique resolves' (alike function inside)
      exact ⟨unitFound.trans unitFound'.symm, found.trans found'.symm⟩
    · constructor <;> rw [Array.getElem?_eq_none (by omega), Array.getElem?_eq_none (by omega)]
  cases compiled
  cases compiled'
  simp only [CompiledModule.mk.injEq]
  exact ⟨sameSource.trans sameSource'.symm, Array.ext_getElem? fun function => (each function).1,
    Array.ext_getElem? fun function => (each function).2, dispatch.trans dispatch'.symm⟩

section Program

open Typing

variable {sections : Binary.Sections} (valid : Validation.sectionsValid sections = true)
  (describes : Describes sections source)

include valid describes

theorem Resolves.standsFor (resolves : Resolves source options function unit resolution)
    (inside : function < source.functionCount) :
    ∃ loaded, unit.load = .ok loaded ∧ loaded.verify = .ok loaded.maxStack ∧
      StandsFor source sections function loaded resolution := by
  have typed := moduleTyped_of_valid describes valid
  cases resolves with
  | host imported typeFound made =>
    obtain ⟨loaded, done, verified, _, delegates⟩ := load_of_delegation made
    exact ⟨loaded, done, verified, .imported typeFound imported delegates⟩
  | interpreted interprets typeFound made =>
    obtain ⟨loaded, done, verified, _, delegates⟩ := load_of_delegation made
    obtain ⟨_, _, typeFound', bodyFound⟩ := typed.exists_body interprets.1 inside
    cases typeFound.symm.trans typeFound'
    exact ⟨loaded, done, verified, .interpreted typeFound bodyFound delegates⟩
  | compiled defined _ _ own =>
    obtain ⟨_, _, typeFound, bodyFound⟩ := typed.exists_body defined inside
    have bodyTyped := bodyTyped_predicted describes valid typeFound bodyFound
    obtain ⟨layout, analyzed⟩ := Normal.analyze_eq_ok typeFound bodyFound bodyTyped
    obtain ⟨_, _, analyzed', every⟩ := own
    cases analyzed.symm.trans analyzed'
    obtain ⟨loaded, done, verified, signature, translation⟩ :=
      exists_translation bodyTyped typeFound bodyFound layout (every unit.size (Nat.le_refl _))
    exact ⟨loaded, done, verified, .compiled typeFound bodyFound signature translation⟩

theorem runnable_of_load (made : (source.compile options).outcome = .ok compiled)
    (loaded : Program.load compiled = .ok program) : Runnable source sections program := by
  obtain ⟨_, dispatch, units, _⟩ := compile_eq_ok made
  obtain ⟨resolutions, sameDispatch, sameUnits, loads⟩ := program_of_load loaded
  refine ⟨sameDispatch.trans dispatch, sameUnits.trans units, fun inside => ?_⟩
  obtain ⟨_, _, unitFound, found, resolves⟩ := resolves_of_compile made inside
  obtain ⟨unit, unitLoaded, verified, stands⟩ := resolves.standsFor valid describes inside
  obtain ⟨_, sameUnit, there⟩ := loads unitFound
  cases unitLoaded.symm.trans sameUnit
  exact ⟨unit, _, there, by rw [resolutions, found], verified, stands⟩

end Program

theorem sum_counts (resolutions : List Resolution) :
    resolutions.count .compiled + resolutions.count .interpreted + resolutions.count .host =
      resolutions.length := by
  induction resolutions with
  | nil => rfl
  | cons resolution resolutions => cases resolution <;> simp <;> omega

/-! ## Success and failure -/

theorem checkRange_eq_ok (inside : ∀ function ∈ options.interpreted, function < count) :
    options.checkRange count = .ok () := by
  have none : options.interpreted.filter (count ≤ ·) = [] := by
    rw [List.filter_eq_nil_iff]
    intro function listed
    have := inside function listed
    simp only [decide_eq_true_eq]
    omega
  rw [CompileOptions.checkRange, none]
  rfl

theorem functionsFrom_all_ok {count function : Nat} {progress : Compilation.Progress}
    (each : ∀ index, function ≤ index → index < function + count →
      ∃ result, source.compileFunction options index = .ok result) :
    ∃ made, Compilation.functionsFrom source options count function progress = .ok made := by
  induction count generalizing function progress with
  | zero => exact ⟨progress, rfl⟩
  | succ count ih =>
    obtain ⟨result, first⟩ := each function (Nat.le_refl _) (by omega)
    rw [Compilation.functionsFrom, first]
    exact ih fun index _ _ => each index (by omega) (by omega)

theorem functionsFrom_first_error {count function failing : Nat} {progress : Compilation.Progress}
    {fault : Error} (above : function ≤ failing) (below : failing < function + count)
    (before : ∀ index, function ≤ index → index < failing →
      ∃ result, source.compileFunction options index = .ok result)
    (failed : source.compileFunction options failing = .error fault) :
    ∃ warnings, Compilation.functionsFrom source options count function progress =
      .error (fault, warnings) := by
  induction count generalizing function progress with
  | zero => omega
  | succ count ih =>
    rw [Compilation.functionsFrom]
    rcases Nat.eq_or_lt_of_le above with same | later
    · rw [same, failed]
      exact ⟨_, rfl⟩
    · obtain ⟨result, first⟩ := before function (Nat.le_refl _) later
      rw [first]
      exact ih later (by omega) fun index above below => before index (by omega) below

section Valid

variable (valid : options.validate = .ok ())
  (listed : ∀ function ∈ options.interpreted, function < source.functionCount)

include valid listed

theorem compile_eq_ok_of_each (each : ∀ function, function < source.functionCount →
      ∃ result, source.compileFunction options function = .ok result) :
    ∃ compiled, (source.compile options).outcome = .ok compiled := by
  obtain ⟨_, ran⟩ := @functionsFrom_all_ok source options source.functionCount 0 ⟨#[], #[], []⟩
    fun index _ _ => each index (by omega)
  unfold Module.compile
  rw [valid, checkRange_eq_ok listed]
  simp only [ran]
  exact ⟨_, rfl⟩

theorem compile_eq_error_of_first {function : Nat} (inside : function < source.functionCount)
    (before : ∀ index, index < function →
      ∃ result, source.compileFunction options index = .ok result)
    (failed : source.compileFunction options function = .error fault) :
    (source.compile options).outcome = .error fault := by
  obtain ⟨_, ran⟩ := @functionsFrom_first_error source options source.functionCount 0 function
    ⟨#[], #[], []⟩ fault (Nat.zero_le _) (by omega) (fun index _ below => before index below) failed
  unfold Module.compile
  rw [valid, checkRange_eq_ok listed]
  simp only [ran]

end Valid

section Fits

variable {function : Nat} {type : FunctionType}
  (typeFound : source.functionType function = some type)

include typeFound

/-- A function that is imported or listed, or whose code is small enough for the policy, is
compiled. -/
theorem compileFunction_fits
    (fits : function < source.importCount ∨ function ∈ options.interpreted ∨
      source.Emits options.maxCodeSize function ∧
        (options.fallback ≠ .fail ∨ ¬ source.Oversized options.maxCodeSize function)) :
    ∃ result, source.compileFunction options function = .ok result := by
  have delegates : ∀ callee, ∃ unit,
      delegation function type callee maxCodeSize = .ok unit := fun callee =>
    let ⟨unit, made, _⟩ := delegation_eq_ok function type callee
    ⟨unit, made⟩
  unfold compileFunction
  rw [typeFound]
  dsimp only
  split
  · obtain ⟨unit, made⟩ := delegates .imported
    rw [made]
    exact ⟨_, rfl⟩
  · rename_i defined
    split
    · obtain ⟨unit, made⟩ := delegates .interpreted
      rw [made]
      exact ⟨_, rfl⟩
    · rename_i unlisted
      rcases fits with imported | member | ⟨⟨code, analyzed, emits⟩, policy⟩
      · exact absurd imported defined
      · exact absurd (List.contains_iff_mem.mpr member) unlisted
      · rw [analyzed]
        simp only [bind, Except.bind]
        rcases emits with ⟨unit, lowered⟩ | ⟨_, size, _, lowered⟩
        · rw [lowered]
          exact ⟨_, rfl⟩
        · obtain ⟨_, sized, large⟩ := oversized_of_tooLarge analyzed lowered
          have allowed := policy.resolve_right fun small => small ⟨size, sized, large⟩
          obtain ⟨unit, made⟩ := delegates .interpreted
          rw [lowered, fallBack]
          cases chosen : options.fallback with
          | fail => exact absurd chosen allowed
          | warn | silent =>
            simp only [made, bind, Except.bind]
            exact ⟨_, rfl⟩

theorem compileFunction_unfit (fail : options.fallback = .fail)
    (defined : source.importCount ≤ function) (unlisted : function ∉ options.interpreted)
    (emits : source.Emits options.maxCodeSize function)
    (sized : codeSize source function = some size) (large : options.maxCodeSize < size) :
    source.compileFunction options function =
      .error (.fallbackRequired function (source.functionName function) size
        options.maxCodeSize) := by
  obtain ⟨_, analyzed, emits⟩ := emits
  have hidden : ¬ options.interpreted.contains function = true := fun found =>
    unlisted (List.contains_iff_mem.mp found)
  unfold compileFunction
  rw [typeFound]
  dsimp only
  rw [if_neg (Nat.not_lt.mpr defined), if_neg hidden, analyzed]
  simp only [bind, Except.bind]
  rcases emits with ⟨_, lowered⟩ | ⟨_, _, _, lowered⟩
  · obtain ⟨_, fits, own⟩ := ownUnit_of_lowered analyzed lowered
    exact absurd ⟨size, sized, large⟩ (own.not_oversized fits)
  · obtain ⟨rfl, sized', _⟩ := oversized_of_tooLarge analyzed lowered
    cases sized.symm.trans sized'
    rw [lowered, fallBack, fail]

end Fits

end Compile

/-! ## Compilation as a whole -/

/-- A compiled module has a unit and a resolution for every function, as the three questions settle
them. -/
structure Settled (source : Module) (options : CompileOptions) (compiled : CompiledModule) :
    Prop where
  units : compiled.units.size = source.functionCount
  resolutions : compiled.resolutions.size = source.functionCount
  named : ∀ {function : Nat} {unit : CodeUnit}, compiled.units[function]? = some unit →
    unit.function = function
  host : ∀ {function : Nat}, function < source.functionCount →
    (compiled.resolutions[function]? = some .host ↔ function < source.importCount)
  interpreted : ∀ {function : Nat}, function < source.functionCount →
    (compiled.resolutions[function]? = some .interpreted ↔ source.Interprets options function)
  own : ∀ {function : Nat}, function < source.functionCount →
    source.importCount ≤ function → ¬ source.Interprets options function →
      compiled.resolutions[function]? = some .compiled ∧
        ∃ unit, compiled.units[function]? = some unit ∧ unit.size ≤ options.maxCodeSize ∧
          source.OwnUnit function unit
  stats : compiled.stats.compiled + compiled.stats.interpreted + compiled.stats.host =
    source.functionCount

theorem settled_of_compile {source : Module}
    (made : (source.compile options).outcome = .ok compiled) : source.Settled options compiled := by
  obtain ⟨_, _, units, resolutions, _⟩ := compile_eq_ok made
  refine ⟨units, resolutions, ?_, ?_, ?_, ?_, ?_⟩
  · intro function unit found
    have inside : function < source.functionCount := by
      rw [← units]
      exact lt_size found
    obtain ⟨_, _, unitFound, _, resolves⟩ := resolves_of_compile made inside
    cases found.symm.trans unitFound
    exact resolves.function_eq
  · intro function inside
    obtain ⟨_, _, _, found, resolves⟩ := resolves_of_compile made inside
    rw [found, Option.some.injEq]
    exact resolves.host_iff
  · intro function inside
    obtain ⟨_, _, _, found, resolves⟩ := resolves_of_compile made inside
    rw [found, Option.some.injEq]
    exact resolves.interpreted_iff
  · intro function inside defined refused
    obtain ⟨unit, _, unitFound, found, resolves⟩ := resolves_of_compile made inside
    cases resolves with
    | host imported => exact absurd imported (Nat.not_lt.mpr defined)
    | interpreted interprets => exact absurd interprets refused
    | compiled _ _ fits own => exact ⟨found, unit, unitFound, fits, own⟩
  · rw [← resolutions, ← Array.length_toList, ← sum_counts]
    simp only [CompiledModule.stats, Array.count_toList]

section Outcome

variable {source : Module} {options : CompileOptions}
  (typed : ∀ {function : Nat}, function < source.functionCount →
    ∃ type, source.functionType function = some type)
  (valid : options.validate = .ok ())
  (listed : ∀ function ∈ options.interpreted, function < source.functionCount)
  (emits : ∀ function, source.importCount ≤ function → function < source.functionCount →
    function ∉ options.interpreted → source.Emits options.maxCodeSize function)

include typed emits in
/-- A function that is not too large is compiled under every policy, and any function is under those
that allow for it. -/
theorem compileFunction_of_not_unfit (inside : function < source.functionCount)
    (fits : options.fallback ≠ .fail ∨ ¬ source.Unfit options function) :
    ∃ result, source.compileFunction options function = .ok result := by
  obtain ⟨_, typeFound⟩ := typed inside
  refine compileFunction_fits typeFound ?_
  by_cases imported : function < source.importCount
  · exact .inl imported
  · have defined := Nat.not_lt.mp imported
    by_cases member : function ∈ options.interpreted
    · exact .inr (.inl member)
    · refine .inr (.inr ⟨emits function defined inside member, fits.imp_right fun fit large => ?_⟩)
      exact fit ⟨defined, inside, member, large⟩

include typed valid listed emits

/-- Without a fallback, the first function that is too large decides. -/
theorem compile_eq_error_of_unfit (fail : options.fallback = .fail)
    (unfit : source.Unfit options function)
    (first : ∀ earlier, earlier < function → ¬ source.Unfit options earlier) :
    ∃ size, codeSize source function = some size ∧ (source.compile options).outcome =
        .error (.fallbackRequired function (source.functionName function) size
          options.maxCodeSize) := by
  obtain ⟨defined, inside, unlisted, size, sized, large⟩ := unfit
  obtain ⟨_, typeFound⟩ := typed inside
  refine ⟨size, sized, compile_eq_error_of_first valid listed inside (fun earlier below => ?_) ?_⟩
  · exact compileFunction_of_not_unfit typed emits (by omega) (.inr (first earlier below))
  · exact compileFunction_unfit typeFound fail defined unlisted
      (emits function defined inside unlisted) sized large

/-- Without a fallback, compilation fails if and only if some function is too large. -/
theorem compile_fails_iff (fail : options.fallback = .fail) :
    (∃ fault, (source.compile options).outcome = .error fault) ↔
      ∃ function, source.Unfit options function := by
  constructor
  · rintro ⟨fault, failed⟩
    by_contra none
    obtain ⟨_, made⟩ := compile_eq_ok_of_each valid listed fun function inside =>
      compileFunction_of_not_unfit typed emits inside (.inr fun unfit => none ⟨function, unfit⟩)
    cases made.symm.trans failed
  · intro exists_
    classical
    obtain ⟨_, _, failed⟩ := compile_eq_error_of_unfit typed valid listed emits fail
      (Nat.find_spec exists_) fun _ below => Nat.find_min exists_ below
    exact ⟨_, failed⟩

end Outcome

section Policies

variable {source : Module} {options : CompileOptions}

theorem interpreted_eq_nil (valid : options.validate = .ok ())
    (allowed : options.fallback ≠ .fail) : options.interpreted = [] ∧ 0 < options.maxCodeSize := by
  unfold CompileOptions.validate at valid
  split at valid
  · cases valid
  · rename_i mixed
    split at valid
    · cases valid
    · refine ⟨?_, by omega⟩
      by_contra listed
      exact mixed ⟨listed, allowed⟩

theorem mem_oversized : function ∈ source.oversized limit ↔ source.importCount ≤ function ∧
      function < source.functionCount ∧ source.Oversized limit function := by
  simp only [oversized, List.mem_filter, List.mem_range, decide_eq_true_eq]
  exact ⟨fun ⟨inside, defined, large⟩ => ⟨defined, inside, large⟩,
    fun ⟨defined, inside, large⟩ => ⟨inside, defined, large⟩⟩

/-- Listing the functions that are too large leaves to the interpreter what a fallback does. -/
theorem interprets_oversized (allowed : policy ≠ .fail) (inside : function < source.functionCount) :
    source.Interprets ⟨policy, [], limit⟩ function ↔
      source.Interprets ⟨.fail, source.oversized limit, limit⟩ function := by
  simp only [Interprets, mem_oversized, List.not_mem_nil, ne_eq, not_true_eq_false, false_and,
    or_false, false_or]
  exact ⟨fun ⟨defined, _, large⟩ => ⟨defined, defined, inside, large⟩,
    fun ⟨defined, _, _, large⟩ => ⟨defined, allowed, large⟩⟩

end Policies

/-- Once the functions that are too large are listed, none is left to fail for. -/
theorem compile_oversized {source : Module} (typed : ∀ {function}, function < source.functionCount →
      ∃ type, source.functionType function = some type) (positive : 0 < limit)
    (emits : ∀ function, source.importCount ≤ function → function < source.functionCount →
      function ∉ ([] : List Nat) → source.Emits limit function) :
    ∃ compiled, (source.compile ⟨.fail, source.oversized limit, limit⟩).outcome = .ok compiled := by
  have valid : (⟨.fail, source.oversized limit, limit⟩ : CompileOptions).validate = .ok () := by
    simp [CompileOptions.validate, Nat.ne_of_gt positive]
  refine compile_eq_ok_of_each valid (fun function member => (mem_oversized.mp member).2.1)
    fun function inside => ?_
  refine compileFunction_of_not_unfit typed
    (fun function defined inside _ =>
      emits function defined inside List.not_mem_nil) inside (.inr ?_)
  rintro ⟨defined, _, unlisted, large⟩
  exact unlisted (mem_oversized.mpr ⟨defined, inside, large⟩)

/-- Every function of a compiled module is resolved by whether it is imported, listed or too large.
If the functions that are not listed are emitted or too large, then compiling fails only for the
first of these under the policy that asks for it; the other policies succeed with one result, which
listing the functions that are too large gives as well. -/
theorem compile_resolution {bytes : List UInt8} {source : Module}
    (parsed : Module.parse bytes = .ok source) (options : CompileOptions) :
    (∀ compiled, (source.compile options).outcome = .ok compiled →
      source.Settled options compiled) ∧
    (options.validate = .ok () →
      (∀ function ∈ options.interpreted, function < source.functionCount) →
      (∀ function, source.importCount ≤ function → function < source.functionCount →
        function ∉ options.interpreted → source.Emits options.maxCodeSize function) →
      (options.fallback = .fail →
        ((∃ fault, (source.compile options).outcome = .error fault) ↔
          ∃ function, source.Unfit options function) ∧
        ∀ function, source.Unfit options function →
          (∀ earlier, earlier < function → ¬ source.Unfit options earlier) →
          ∃ size, codeSize source function = some size ∧
            (source.compile options).outcome =
              .error (.fallbackRequired function (source.functionName function) size
                options.maxCodeSize)) ∧
      (options.fallback ≠ .fail → ∃ compiled, (∀ policy, policy ≠ .fail →
          (source.compile { options with fallback := policy }).outcome = .ok compiled) ∧
        (source.compile ⟨.fail, source.oversized options.maxCodeSize,
          options.maxCodeSize⟩).outcome = .ok compiled ∧
        ∀ plain, (source.compile { options with fallback := .fail }).outcome = .ok plain →
          plain = compiled)) := by
  have typed : ∀ {function : Nat}, function < source.functionCount →
      ∃ type, source.functionType function = some type := exists_functionType parsed
  refine ⟨fun compiled made => settled_of_compile made, fun valid listed emits => ⟨?_, ?_⟩⟩
  · intro fail
    exact ⟨compile_fails_iff typed valid listed emits fail, fun function unfit first =>
      compile_eq_error_of_unfit typed valid listed emits fail unfit first⟩
  · intro allowed
    obtain ⟨empty, positive⟩ := interpreted_eq_nil valid allowed
    obtain ⟨fallback, interpreted, limit⟩ := options
    dsimp only at empty positive allowed emits ⊢
    subst empty
    have zero : limit ≠ 0 := by omega
    have every : ∀ policy, policy ≠ .fail →
        ∃ compiled, (source.compile ⟨policy, [], limit⟩).outcome = .ok compiled :=
      fun policy other => compile_eq_ok_of_each (by simp [CompileOptions.validate, zero]) (by simp)
        fun _ inside => compileFunction_of_not_unfit typed emits inside (.inl other)
    obtain ⟨compiled, made⟩ := every fallback allowed
    obtain ⟨large, madeLarge⟩ := compile_oversized typed positive emits
    refine ⟨compiled, fun policy other => ?_, ?_, fun plain madePlain => ?_⟩
    · obtain ⟨result, ran⟩ := every policy other
      rw [ran, compile_unique ran made fun function inside => ?_]
      rw [interprets_oversized other inside, interprets_oversized allowed inside]
    · rw [madeLarge, compile_unique made madeLarge fun function inside =>
        interprets_oversized allowed inside]
    · have fits : ∀ function, ¬ source.Unfit ⟨.fail, [], limit⟩ function := by
        intro function unfit
        obtain ⟨fault, failed⟩ := (compile_fails_iff typed (by simp [CompileOptions.validate, zero])
          (by simp) emits rfl).mpr ⟨function, unfit⟩
        rw [madePlain] at failed
        cases failed
      refine compile_unique madePlain made fun function inside => ⟨?_, ?_⟩
      · rintro ⟨_, absurd | ⟨absurd, _⟩⟩
        · cases absurd
        · exact (absurd rfl).elim
      · rintro ⟨defined, absurd | ⟨_, large⟩⟩
        · cases absurd
        · exact (fits function ⟨defined, inside, List.not_mem_nil, large⟩).elim

/-- Whether the code of a function is lowered to a unit or is too large for it. -/
def emits (source : Module) (limit function : Nat) : Bool :=
  match source.analyze function with
  | .error _ => false
  | .ok code =>
    match Lowering.function source function code.toList limit with
    | .ok _ | .error (.codeTooLarge ..) => true
    | .error _ => false

theorem emits_of_eq_true {source : Module} {limit function : Nat}
    (found : source.emits limit function = true) : source.Emits limit function := by
  unfold emits at found
  split at found
  · cases found
  · rename_i code analyzed
    refine ⟨code, analyzed, ?_⟩
    split at found
    · rename_i unit lowered
      exact .inl ⟨unit, lowered⟩
    · rename_i index size bound lowered
      exact .inr ⟨index, size, bound, lowered⟩
    · cases found

theorem compile_resolution_branchTable :
    ∃ source compiled, Module.parse Lowering.branchTableBytes = .ok source ∧
      (source.compile ⟨.silent, [], 40⟩).outcome = .ok compiled ∧
      source.Settled ⟨.silent, [], 40⟩ compiled ∧
      (source.compile ⟨.fail, [], 40⟩).outcome =
        .error (.fallbackRequired 1 (source.functionName 1) 48 40) := by
  obtain ⟨source, parsed, _, _, small, large, first, second⟩ :=
    exists_ok (Module.parse Lowering.branchTableBytes) (fun source => source.importCount = 0 ∧
      source.functionCount = 2 ∧ codeSize source 0 = some 16 ∧ codeSize source 1 = some 48 ∧
      source.emits 40 0 ∧ source.emits 40 1) (by decide +kernel)
  have emits : ∀ function, source.importCount ≤ function → function < source.functionCount →
      function ∉ ([] : List Nat) → source.Emits 40 function := by
    intro function _ inside _
    obtain rfl | rfl : function = 0 ∨ function = 1 := by omega
    · exact emits_of_eq_true first
    · exact emits_of_eq_true second
  have unfit : source.Unfit ⟨.fail, [], 40⟩ 1 :=
    ⟨by omega, by omega, List.not_mem_nil, 48, large, by decide⟩
  have fits : ∀ earlier, earlier < 1 → ¬ source.Unfit ⟨.fail, [], 40⟩ earlier := by
    rintro earlier below ⟨_, _, _, size, sized, beyond⟩
    rw [show earlier = 0 by omega, small] at sized
    cases sized
    exact absurd beyond (by decide)
  obtain ⟨settled, outcome⟩ := compile_resolution parsed ⟨.silent, [], 40⟩
  obtain ⟨_, fallback⟩ := outcome rfl (by simp) emits
  obtain ⟨compiled, policies, _⟩ := fallback (by decide)
  have made := policies .silent (by decide)
  obtain ⟨_, outcome⟩ := compile_resolution parsed ⟨.fail, [], 40⟩
  obtain ⟨fails, _⟩ := outcome rfl (by simp) emits
  obtain ⟨size, sized, failed⟩ := (fails rfl).2 1 unfit fits
  rw [large] at sized
  cases sized
  exact ⟨source, compiled, parsed, made, settled compiled made, failed⟩

end Module

end TwinEngine
