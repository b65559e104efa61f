import TwinEngine.Proofs.Typing.Module

/-!
Contract: bounds on what is read from bytes.

Owns: that the operands of operators fit 32 bits, and that a core module has fewer than 2^32
functions.
-/

namespace TwinEngine

namespace Binary

/-! ## What readers give -/

namespace Reader

variable {α β : Type}

def Yields (reader : Reader α) (property : α → Prop) : Prop :=
  ∀ bytes value rest, reader bytes = some (value, rest) → property value

theorem Yields.any (reader : Reader α) : reader.Yields fun _ => True := fun _ _ _ _ => trivial

theorem Yields.fail (property : α → Prop) : (fail : Reader α).Yields property := nofun

theorem Yields.pure (holds : property value) : (Pure.pure value : Reader α).Yields property := by
  intro _ _ _ read
  cases read
  exact holds

theorem Yields.bind {next : α → Reader β} (front : reader.Yields first)
    (back : ∀ value, first value → (next value).Yields property) :
    (reader >>= next).Yields property := by
  intro _ value _ read
  simp only [Bind.bind] at read
  split at read
  · cases read
  · rename_i early _ found
    exact back early (front _ _ _ found) _ _ _ read

theorem yields_unsignedOf (bits : Nat) : (unsignedOf bits).Yields (· < 2 ^ bits) := by
  intro bytes value rest read
  induction bits using Nat.strongRecOn generalizing bytes value rest with
  | ind bits ih =>
    cases bytes with
    | nil => cases read
    | cons first =>
      rw [unsignedOf] at read
      have byte : first.toNat < 256 := first.toNat_lt
      split at read
      · split at read
        · rename_i small fits
          cases read
          rcases fits with wide | fits
          · calc first.toNat < 2 ^ 7 := small
              _ ≤ 2 ^ bits := Nat.pow_le_pow_right (by decide) wide
          · exact fits
        · cases read
      · split at read
        · cases read
        · rename_i wide
          split at read
          · cases read
          · rename_i found
            cases read
            have less := ih (bits - 7) (by omega) _ _ _ found
            have split : 2 ^ bits = 128 * 2 ^ (bits - 7) := by
              rw [show (128 : Nat) = 2 ^ 7 from rfl, ← Nat.pow_add]
              congr 1
              omega
            omega

theorem yields_index : index.Yields (· < 2 ^ 32) := yields_unsignedOf 32

theorem yields_repeatInto (each : reader.Yields property) (count : Nat) (done : Array α)
    (before : ∀ value ∈ done, property value) : (repeatInto reader count done).Yields fun values =>
      values.size = done.size + count ∧ ∀ value ∈ values, property value := by
  induction count generalizing done with
  | zero =>
    intro bytes values rest read
    cases read
    exact ⟨rfl, before⟩
  | succ count ih =>
    intro bytes values rest read
    simp only [repeatInto] at read
    split at read
    · cases read
    · rename_i value _ found
      have later := ih (done.push value) (by
        intro other member
        rcases Array.mem_push.mp member with earlier | same
        · exact before other earlier
        · exact same ▸ each _ _ _ found) _ _ _ read
      exact ⟨by rw [later.1, Array.size_push]; omega, later.2⟩

theorem yields_vector {property : α → Prop} (limit : Nat) (each : reader.Yields property) :
    (vector limit reader).Yields fun values =>
      values.size ≤ limit ∧ ∀ value ∈ values, property value := by
  refine Yields.bind (Yields.any _) fun count _ => ?_
  have bounded : (require (count ≤ limit)).Yields fun _ => count ≤ limit := by
    intro bytes value rest read
    unfold require at read
    split at read
    · rename_i few
      simpa using few
    · cases read
  refine Yields.bind bounded fun _ few => ?_
  intro bytes values rest read
  have ⟨size, all⟩ := yields_repeatInto each count #[] (by simp) _ _ _ read
  exact ⟨by simp at size; omega, all⟩

theorem yields_untilEnd (each : reader.Yields property) (fuel : Nat) (done : Array α)
    (before : ∀ value ∈ done, property value) :
    (untilEnd reader fuel done).Yields fun values => ∀ value ∈ values, property value := by
  induction fuel generalizing done with
  | zero =>
    intro bytes values rest read
    cases bytes with
    | nil =>
      cases read
      exact before
    | cons => cases read
  | succ fuel ih =>
    intro bytes values rest read
    cases bytes with
    | nil =>
      cases read
      exact before
    | cons =>
      simp only [untilEnd] at read
      split at read
      · cases read
      · rename_i value _ found
        refine ih (done.push value) ?_ _ _ _ read
        intro other member
        rcases Array.mem_push.mp member with earlier | same
        · exact before other earlier
        · exact same ▸ each _ _ _ found

end Reader

/-! ## Operators -/

def operands : TwinEngine.Operator → List Nat
  | .call function | .tailCall function | .refFunc function => [function]
  | .callIndirect table typeIndex | .tailCallIndirect table typeIndex => [table, typeIndex]
  | .globalGet index | .globalSet index => [index]
  | .tableGet table | .tableSet table | .tableSize table | .tableGrow table | .tableFill table =>
    [table]
  | .tableCopy target source => [target, source]
  | .tableInit table segment => [table, segment]
  | .elementDrop segment | .memoryInit segment | .dataDrop segment => [segment]
  | _ => []

def Narrow (operator : TwinEngine.Operator) : Prop :=
  ∀ operand ∈ operands operator, operand < 2 ^ 32

def Operator.IsNarrow : Operator → Prop
  | .plain operator => Narrow operator
  | .memoryInit segment _ => segment < 2 ^ 32
  | _ => True

namespace Reader

/-- Operators of which no operand is kept in 32 bits. -/
theorem yields_free {wrap : α → Operator} (free : ∀ value, (wrap value).IsNarrow) :
    (do return wrap (← reader) : Reader Operator).Yields Operator.IsNarrow :=
  (Yields.any reader).bind fun value _ => Yields.pure (free value)

theorem yields_one {wrap : Nat → Operator}
    (narrow : ∀ value, value < 2 ^ 32 → (wrap value).IsNarrow) :
    (do return wrap (← index) : Reader Operator).Yields Operator.IsNarrow :=
  yields_index.bind fun value small => Yields.pure (narrow value small)

theorem yields_two {wrap : Nat → Nat → Operator}
    (narrow : ∀ first second, first < 2 ^ 32 → second < 2 ^ 32 → (wrap first second).IsNarrow) : (do
      let first ← index
      return wrap first (← index) : Reader Operator).Yields Operator.IsNarrow :=
  yields_index.bind fun first small =>
    yields_index.bind fun second small' => Yields.pure (narrow first second small small')

theorem yields_bulkOperator : bulkOperator.Yields Operator.IsNarrow := by
  refine (Yields.any _).bind fun _ _ => ?_
  split
  all_goals
    first
    | exact yields_one (by simp [Operator.IsNarrow, Narrow, operands])
    | exact yields_two (by simp +contextual [Operator.IsNarrow, Narrow, operands])
    | exact (Yields.any _).bind fun _ _ =>
      yields_free (by simp [Operator.IsNarrow, Narrow, operands])

theorem yields_vectorOperator : vectorOperator.Yields Operator.IsNarrow := by
  refine (Yields.any _).bind fun _ _ => (Yields.any _).bind fun _ _ => ?_
  split
  all_goals
    first
    | exact Yields.pure trivial
    | exact (Yields.any _).bind fun _ _ => Yields.pure trivial
    | exact (Yields.any _).bind fun _ _ => (Yields.any _).bind fun _ _ => Yields.pure trivial

theorem yields_atomicOperator : atomicOperator.Yields Operator.IsNarrow := by
  refine (Yields.any _).bind fun _ _ => ?_
  split
  all_goals
    exact (Yields.any _).bind fun _ _ => (Yields.any _).bind fun _ _ => Yields.pure trivial

theorem yields_operatorInRow (code : Nat) : (operatorInRow code).Yields Operator.IsNarrow := by
  unfold operatorInRow
  repeat' split
  all_goals
    first
    | exact Yields.fail _
    | exact yields_free (by simp [Operator.IsNarrow, Narrow, operands])
    | exact (Yields.any _).bind fun _ _ => (Yields.any _).bind fun _ _ => Yields.pure trivial

/-- The operands of an operator that is read fit 32 bits. -/
theorem yields_operator : operator.Yields Operator.IsNarrow := by
  refine (Yields.any _).bind fun _ _ => ?_
  split
  all_goals
    first
    | exact Yields.pure (by simp [Operator.IsNarrow, Narrow, operands])
    | exact yields_bulkOperator
    | exact yields_vectorOperator
    | exact yields_atomicOperator
    | exact yields_operatorInRow _
    | exact yields_one (by simp [Operator.IsNarrow, Narrow, operands])
    | exact yields_two (by simp +contextual [Operator.IsNarrow, Narrow, operands])
    | exact yields_free (by simp [Operator.IsNarrow, Narrow, operands])
    | exact (Yields.any _).bind fun _ _ =>
      yields_free (by simp [Operator.IsNarrow, Narrow, operands])
    | exact (Yields.any _).bind fun _ _ => (Yields.any _).bind fun _ _ =>
      yields_free (by simp [Operator.IsNarrow])

end Reader

/-! ## Sections -/

/-- The counts of functions, and the operands in every body, have the bounds of the format. -/
structure Bounded (sections : Sections) : Prop where
  imports : sections.imports.length ≤ Reader.entryLimit
  functions : sections.functions.length ≤ Reader.definitionLimit
  code : ∀ entry ∈ sections.code, ∀ operator ∈ entry.operators, operator.IsNarrow

namespace Reader

theorem of_whole {α : Type} {reader : Reader α} {property : α → Prop} {value : α}
    (each : reader.Yields property) (read : reader.whole bytes = some value) : property value := by
  unfold whole at read
  split at read
  · cases read
    exact each _ _ _ ‹_›
  · cases read

theorem yields_codeInside :
    codeInside.Yields fun entry => ∀ operator ∈ entry.operators, operator.IsNarrow := by
  refine (Yields.any _).bind fun _ _ => (Yields.any _).bind fun _ _ => ?_
  have ops : (all operator).Yields fun found => ∀ operator ∈ found, operator.IsNarrow :=
    fun bytes => yields_untilEnd yields_operator bytes.length #[] (by simp) bytes
  exact ops.bind fun found narrow => Yields.pure (by simpa using narrow)

theorem yields_codeEntry :
    codeEntry.Yields fun entry => ∀ operator ∈ entry.operators, operator.IsNarrow := by
  refine (Yields.any _).bind fun _ _ => (Yields.any _).bind fun _ _ =>
    (Yields.any _).bind fun content _ => ?_
  cases found : codeInside.whole content with
  | none => exact Yields.fail _
  | some entry => exact Yields.pure (of_whole yields_codeInside found)

theorem yields_sectionContent {sections : Sections} (bounded : Bounded sections) (id : Nat) :
    (sectionContent sections id).Yields Bounded := by
  unfold sectionContent
  split
  case h_2 =>
    exact (yields_vector _ (Yields.any _)).bind fun entries small =>
      Yields.pure { bounded with imports := by simpa using small.1 }
  case h_3 =>
    exact (yields_vector _ (Yields.any _)).bind fun entries small =>
      Yields.pure { bounded with functions := by simpa using small.1 }
  case h_10 =>
    exact (yields_vector _ yields_codeEntry).bind fun entries small =>
      Yields.pure { bounded with code := by simpa using small.2 }
  all_goals
    first
    | exact Yields.fail _
    | exact (Yields.any _).bind fun entries _ => Yields.pure { bounded with }

theorem bounded_of_customSection (read : customSection sections content = some final)
    (bounded : Bounded sections) : Bounded final := by
  unfold customSection at read
  split at read
  · cases read
  · split at read
    · cases read
      exact { bounded with }
    · cases read
      exact bounded

theorem bounded_of_sectionsFrom (read : sectionsFrom fuel rank sections bytes = some final)
    (bounded : Bounded sections) : Bounded final := by
  fun_induction sectionsFrom fuel rank sections bytes with
  | case1 =>
    cases read
    exact bounded
  | case2 | case3 | case4 | case7 | case8 => cases read
  | case5 fuel rank sections _ _ content rest _ later custom ih =>
    exact ih read (bounded_of_customSection custom bounded)
  | case6 fuel rank sections bytes _ id content rest _ _ next later inside _ _
      ih =>
      exact ih read (of_whole (yields_sectionContent bounded id) inside)

end Reader

theorem bounded_of_ofBytes (core : Sections.ofBytes? bytes = some sections) : Bounded sections := by
  unfold Sections.ofBytes? at core
  split at core
  · exact Reader.bounded_of_sectionsFrom core
      { imports := Nat.zero_le _, functions := Nat.zero_le _, code := by simp }
  · cases core

/-! ## Modules -/

theorem narrow_of_supported {written : Operator} {operator : TwinEngine.Operator}
    (supported : written.supported = .ok operator) (narrow : written.IsNarrow) :
    Narrow operator := by
  cases written with
  | plain operator =>
    cases supported
    exact narrow
  | memoryInit =>
    cases supported
    simpa [Narrow, operands, Operator.IsNarrow] using narrow
  | enter | selectType | refNull =>
    obtain ⟨_, _, rfl⟩ := map_eq_ok.mp supported
    simp [Narrow, operands]
  | extension => cases supported
  | load | store | memorySize | memoryGrow | memoryFill | memoryCopy =>
    cases supported
    simp [Narrow, operands]

theorem narrow_of_body {entry : CodeEntry} {index : Nat} {instr : Instruction}
    (supported : entry.body = .ok body) (narrow : ∀ operator ∈ entry.operators, operator.IsNarrow)
    (here : body.instructions[index]? = some instr) : Narrow instr.operator := by
  simp only [CodeEntry.body, bind_eq_ok] at supported
  obtain ⟨_, _, ops, mapped, same⟩ := supported
  cases same
  rw [BlockStructure.annotate_get] at here
  obtain ⟨operator, found, rfl⟩ := Option.map_eq_some_iff.mp here
  obtain ⟨written, member, image⟩ := preimage_of_mapM mapped found
  rw [BlockStructure.Context.annotate_operator]
  exact narrow_of_supported image (narrow written (List.mem_of_getElem? member))

/-- What holds of every module that is read from the bytes of a core module. -/
structure Fitted (source : Module) : Prop where
  functions : source.functionCount < 2 ^ 32
  operators : ∀ {function : Nat} {body : Body}, source.body function = some body →
    ∀ {index : Nat} {instr : Instruction},
      body.instructions[index]? = some instr → Narrow instr.operator

theorem fitted_of_parse {sections : Sections} {source : Module}
    (core : Sections.ofBytes? bytes = some sections) (parsed : Module.parse bytes = .ok source) :
    Fitted source := by
  have bounded := bounded_of_ofBytes core
  have describes := (Typing.describes_of_parse core parsed).2
  constructor
  · have imports := length_of_mapM describes.imports
    have functions := congrArg List.length describes.functions
    have importsBound := bounded.imports
    have functionsBound := bounded.functions
    simp only [Array.length_toList, Reader.entryLimit, Reader.definitionLimit] at *
    unfold Module.functionCount
    omega
  · intro function body found _ instr here
    unfold Module.body at found
    split at found
    · cases found
    · rw [← Array.getElem?_toList] at found
      obtain ⟨entry, listed, supported⟩ := preimage_of_mapM describes.bodies found
      exact narrow_of_body supported (bounded.code entry (List.mem_of_getElem? listed)) here

end Binary

end TwinEngine
