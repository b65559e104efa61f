import TwinEngine.Proofs.Lowering.Program
import TwinEngine.Proofs.Lowering.Walks
import TwinEngine.Proofs.Machine.Emission

/-!
Contract: the size of a unit, and what it decides.

Owns: that every stage of lowering adds to a unit and counts the length of what it adds, that no
stage but the last fails for the sake of size, and that the last one compares exactly the bytes that
the unit would have with the limit.

Nothing here depends on the code being typed.
-/

namespace TwinEngine.Lowering

open Machine hiding Instruction
open Machine.Instruction (encodedLength)

/-! ## What lowering appends -/

/-- A unit after more code was appended, whose length was counted. -/
structure Grown (before after : Emitter) : Prop where
  function : after.function = before.function
  slots : ∀ {frameSlots : Nat}, FrameSlots frameSlots before.localSlots before.scratch →
    FrameSlots frameSlots after.localSlots after.scratch
  appended : ∃ more, after.instructions.toList = before.instructions.toList ++ more ∧
    after.size = before.size + position more more.length

section Grown

variable {before middle after : Emitter}

theorem Grown.of_same (function : after.function = before.function)
    (slots : ∀ {frameSlots}, FrameSlots frameSlots before.localSlots before.scratch →
      FrameSlots frameSlots after.localSlots after.scratch)
    (code : after.instructions = before.instructions) (size : after.size = before.size) :
    Grown before after :=
  ⟨function, slots, [], by rw [code, List.append_nil], size⟩

theorem Grown.refl (emitter : Emitter) : Grown emitter emitter := .of_same rfl id rfl rfl

theorem Grown.trans (first : Grown before middle) (second : Grown middle after) :
    Grown before after := by
  obtain ⟨sameFunction, slots, front, code, size⟩ := first
  obtain ⟨sameFunction', slots', back, code', size'⟩ := second
  refine ⟨sameFunction'.trans sameFunction, fun held => slots' (slots held), front ++ back, ?_, ?_⟩
  · rw [code', code, List.append_assoc]
  · rw [size', size, position_append_length, Nat.add_assoc]

variable (grown : Grown before after)

include grown

theorem Grown.push (instr : Machine.Instruction JumpTarget) : Grown before (after.push instr) := by
  refine grown.trans ⟨rfl, id, [instr.retarget JumpTarget.placeholder], ?_, ?_⟩
  · simp [Emitter.push]
  · simp [Emitter.push, position]

theorem Grown.emit (action : Action) : Grown before (after.emit action) := grown.push _

theorem Grown.labelFor (name : Nat) : Grown before (after.labelFor name).2 := by
  refine grown.trans ?_
  unfold Emitter.labelFor
  split
  · exact .refl after
  · exact .of_same rfl id rfl rfl

theorem Grown.labelsFor (names : List Nat) : Grown before (after.labelsFor names).2 := by
  induction names generalizing after with
  | nil => exact grown
  | cons name _ ih => exact ih (grown.labelFor name)

theorem Grown.size_le : before.size ≤ after.size := by
  obtain ⟨_, _, _, _, size⟩ := grown
  omega

theorem Grown.poll (backwards : Bool) :
    Grown before (if backwards then after.emit .checkInterrupt else after) := by
  cases backwards with
  | false => exact grown
  | true => exact grown.emit _

end Grown

/-- Every stage of lowering appends. -/
theorem kept_grown (before : Emitter) :
    Kept (fun _ => True) fun left right => left = right ∧ Grown before left where
  frame := by
    rintro left right ⟨rfl, _⟩
    exact ⟨rfl, rfl, rfl, rfl⟩
  pool := by
    rintro left right ⟨rfl, grown⟩ _
    exact ⟨rfl, grown.trans (.of_same rfl id rfl rfl)⟩
  scratch := by
    rintro left right ⟨rfl, grown⟩ absent _ same
    refine ⟨rfl, grown.trans (.of_same rfl (fun held => ?_) rfl rfl)⟩
    rw [absent] at held
    exact ⟨same.trans held, congrArg Nat.succ held⟩
  emit := by
    rintro left right action ⟨rfl, grown⟩ _
    exact ⟨rfl, grown.emit _⟩
  polled := by
    rintro left right action ⟨rfl, grown⟩
    exact ⟨rfl, (grown.emit _).emit _⟩
  jump := by
    rintro left right _ name ⟨rfl, grown⟩ _
    exact ⟨rfl, ((grown.labelFor name).poll _).push _⟩
  switch := by
    rintro left right names ⟨rfl, grown⟩ _ _
    exact ⟨rfl, ((grown.labelsFor names).poll _).push _⟩
  label := by
    rintro left right name ⟨rfl, grown⟩
    exact ⟨rfl, (grown.labelFor name).trans (.of_same rfl id rfl rfl)⟩

/-! ## Emitted code -/

/-- Bytes of the code that lowering emits for a function, whatever limit it is held against. -/
def codeSize (source : Module) (function : Nat) : Option Nat :=
  match source.analyze function with
  | .error _ => none
  | .ok code =>
    match emitted source function code.toList with
    | .error _ => none
    | .ok (_, emitter) => some (emitter.instructions.toList.map
        Machine.Instruction.encodedLength).sum

section Emitted

variable {source : Module} {function : Nat} {code : List Normalized}

/-- A unit under construction counts the bytes of its instructions. -/
theorem emitted_size (made : emitted source function code = .ok (context, emitter)) :
    emitter.function = function ∧
      emitter.size = (emitter.instructions.toList.map encodedLength).sum := by
  obtain ⟨_, sameFunction, _, _, appended, size⟩ :=
    (kept_grown (.new function context.frameSlots)).of_emitted made ⟨rfl, .refl _⟩
  refine ⟨sameFunction, ?_⟩
  rw [appended, size]
  simp [Emitter.new, position]

theorem not_tooLarge_of_context (failed : Context.of source function = .error fault) :
    ¬ TooLarge fault := by
  cases typeFound : source.functionType function with
  | none =>
    simp only [Context.of, typeFound] at failed
    cases failed
    exact id
  | some =>
    cases bodyFound : source.body function with
    | none =>
      simp only [Context.of, typeFound, bodyFound] at failed
      cases failed
      exact id
    | some body =>
      rcases context_outcome typeFound bodyFound with ⟨_, made, _⟩ | ⟨_, refused, refusal⟩
      · cases made.symm.trans failed
      · cases refused.symm.trans failed
        cases refusal <;> exact id

/-- No stage before the last fails for the sake of size. -/
theorem not_tooLarge_of_emitted (failed : emitted source function code = .error fault) :
    ¬ TooLarge fault := by
  rcases bind_eq_error.mp failed with unknown | ⟨context, _, failed⟩
  · exact not_tooLarge_of_context unknown
  have kept := kept_grown (.new function context.frameSlots)
  have entered := kept.prologue context ⟨rfl, .refl (.new function context.frameSlots)⟩
  rcases bind_eq_error.mp failed with unstarted | ⟨first, started, failed⟩
  · rw [unstarted] at entered
    exact entered.2
  rw [started] at entered
  have lowered := kept.instructions context entered
    fun (_ : _) (_ : _ ∈ code) _ _ => trivial
  rcases bind_eq_error.mp failed with unfinished | ⟨_, _, absurd⟩
  · rw [unfinished] at lowered
    exact lowered.2
  · cases absurd

theorem instructions_append (context : Context) (front back : List Normalized) (emitter : Emitter) :
    instructions context (front ++ back) emitter =
      instructions context front emitter >>= instructions context back := by
  induction front generalizing emitter with
  | nil => rfl
  | cons first front ih =>
    rw [List.cons_append, instructions, instructions]
    cases instruction context emitter first with
    | error => rfl
    | ok after => exact ih after

theorem grown_of_emitted (early : emitted source function front = .ok (context, emitter))
    (late : emitted source function (front ++ back) = .ok (whole, last)) : Grown emitter last := by
  obtain ⟨found, _, started, ended⟩ := emitted_eq_ok early
  obtain ⟨found', _, started', ended'⟩ := emitted_eq_ok late
  cases found.symm.trans found'
  cases started.symm.trans started'
  rw [instructions_append, ended] at ended'
  have grown := (kept_grown emitter).instructions context ⟨rfl, .refl emitter⟩
    fun (_ : _) (_ : _ ∈ back) _ _ => trivial
  simp only [bind, Except.bind] at ended'
  rw [ended'] at grown
  exact grown.2

end Emitted

/-! ## Finishing -/

/-- Patching leaves each instruction as many operands. -/
theorem sizes_of_patch {labels : Array (Option Nat)} {starts : Array Nat}
    {operands patched : Array (Array Int32)}
    (done : Emitter.patch labels starts operands fixup = .ok patched) (index : Nat) :
    patched[index]?.map Array.size = operands[index]?.map Array.size := by
  obtain ⟨_, _, done⟩ := bind_eq_ok.mp done
  split at done <;> cases done
  rw [Array.getElem?_modify]
  split <;> simp [Function.comp_def]

theorem encodedLength_withTargets {targets : List Int32} {instr : Machine.Instruction Int32}
    (same : targets.length = instr.targets.length) :
    (instr.withTargets targets).encodedLength = instr.encodedLength := by
  cases instr <;> simp_all [Instruction.withTargets, encodedLength, Instruction.targets]

theorem length_of_resolveFixups {emitter : Emitter} (ran : emitter.resolveFixups = .ok resolved) :
    (Emitter.encodeAll resolved).length = (emitter.instructions.toList.map encodedLength).sum := by
  rw [Emitter.resolveFixups, ← Array.foldlM_toList] at ran
  obtain ⟨operands, patched, same⟩ := bind_eq_ok.mp ran
  cases same
  have sizes := foldlM_keeps (fun _ (operands : Array (Array Int32)) => ∀ index : Nat,
    operands[index]?.map Array.size = emitter.instructions[index]?.map (·.targets.length))
    (by simp [Function.comp_def])
    (fun _ held done index => (sizes_of_patch done index).trans (held index)) patched
  have kept : (emitter.instructions.zipWith (fun instr own => instr.withTargets own.toList)
      operands).toList.map encodedLength = emitter.instructions.toList.map encodedLength := by
    refine List.ext_getElem? fun index => ?_
    have size := sizes index
    cases found : emitter.instructions[index]? <;> cases own : operands[index]? <;>
      simp_all [List.getElem?_zipWith, encodedLength_withTargets]
  generalize Array.zipWith _ _ _ = resolved at kept
  obtain ⟨resolved⟩ := resolved
  rw [encodeAll_toArray, length_flatMap_encode, position, List.take_length, ← kept]

/-! ## Outcomes for every limit -/

section Outcomes

variable {source : Module} {function limit : Nat} {code : List Normalized}

theorem function_eq_ok (made : Lowering.function source function code limit = .ok unit) :
    unit.function = function ∧ unit.size ≤ limit ∧
      (∃ context emitter, emitted source function code = .ok (context, emitter) ∧
        unit.size = (emitter.instructions.toList.map encodedLength).sum) ∧
      ∀ other, unit.size ≤ other → Lowering.function source function code other = .ok unit := by
  rw [function_eq] at made
  obtain ⟨⟨context, emitter⟩, emission, finished⟩ := bind_eq_ok.mp made
  obtain ⟨sameFunction, counted⟩ := emitted_size emission
  rw [finish_eq_sealed] at finished
  obtain ⟨resolved, ran, finished⟩ := bind_eq_ok.mp finished
  split at finished
  · cases finished
  · rename_i fits
    dsimp only at fits
    obtain ⟨same, -⟩ := sealed_eq_ok finished
    have unitFunction : unit.function = emitter.function := by rw [same]; rfl
    have bytes : unit.bytes = Emitter.encodeAll resolved := by rw [same]; rfl
    have size : unit.size = emitter.size := by
      rw [CodeUnit.size, bytes, length_of_resolveFixups ran, counted]
    refine ⟨unitFunction.trans sameFunction, by omega, ⟨context, emitter, emission, ?_⟩, ?_⟩
    · rw [size, counted]
    · intro other _
      rw [function_eq, emission]
      simp only [bind, Except.bind]
      rw [finish_eq_sealed, ran]
      simp only [bind, Except.bind]
      rw [if_neg (by omega), finished]

theorem function_tooLarge
    (failed : Lowering.function source function code limit =
      .error (.codeTooLarge index size bound)) :
    index = function ∧ bound = limit ∧ limit < size ∧
      ∃ context emitter, emitted source function code = .ok (context, emitter) ∧
        size = (emitter.instructions.toList.map encodedLength).sum := by
  rw [function_eq] at failed
  rcases bind_eq_error.mp failed with unemitted | ⟨⟨context, emitter⟩, emission, failed⟩
  · exact absurd trivial (not_tooLarge_of_emitted unemitted)
  obtain ⟨sameFunction, counted⟩ := emitted_size emission
  rw [finish_eq_sealed] at failed
  rcases bind_eq_error.mp failed with unresolved | ⟨_, _, failed⟩
  · obtain ⟨_, other⟩ := internal_of_resolveFixups unresolved
    cases other
  split at failed
  · cases failed
    exact ⟨sameFunction, rfl, by omega, context, emitter, emission, counted⟩
  · obtain ⟨_, other⟩ := verification_of_sealed failed
    cases other

end Outcomes

end TwinEngine.Lowering
