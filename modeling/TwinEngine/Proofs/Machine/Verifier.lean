import TwinEngine.Machine.Verifier

/-!
Contract: what the check of a loaded unit finds out.

Owns: consistent depths of the instructions of a unit, that the check succeeds on a unit that has
them, and that it finds them whenever it succeeds.
-/

namespace TwinEngine.Machine.LoadedUnit

open List (length_cons mem_cons)

variable {unit : LoadedUnit}

/-- Depths of the instructions that can be reached: each passes the check, and wherever control goes
on behind it, the depth there is the one that it leaves. -/
structure Consistent (unit : LoadedUnit) (depths : Nat → Option Nat) : Prop where
  start : depths 0 = some 0
  step : ∀ {index depth : Nat}, depths index = some depth →
    ∃ instr after, unit.code[index]? = some instr ∧
      unit.checkInstruction index instr depth = .ok after ∧
      ∀ {next later : Nat}, (next, later) ∈ successors index instr after →
        depths next = some later

/-! ## The check of one instruction -/

/-- The local slots that an instruction touches are there. -/
def Touches (unit : LoadedUnit) (instr : Instruction Nat) : Prop :=
  ∀ slot, touchedLocal instr = some slot → slot < unit.localSlots

theorem checkInstruction_eq_ok_iff : unit.checkInstruction index instr depth = .ok after ↔
      unit.Touches instr ∧ (∃ pops pushes,
        unit.stackEffect instr = .ok (pops, pushes) ∧ pops ≤ depth ∧
          after = depth - pops + pushes) ∧
      ∀ slots, instr = .plain (.leave slots) → slots.toNat = returnSlots unit.signature := by
  unfold checkInstruction Touches
  simp only [bind, Except.bind, throw, throwThe, MonadExceptOf.throw, pure, Except.pure]
  cases effect : unit.stackEffect instr with
  | error => grind
  | ok change =>
    obtain ⟨pops, pushes⟩ := change
    grind

/-! ## The check succeeds on consistent depths -/

theorem search_ne_error (consistent : Consistent unit depths) (fuel : Nat)
    (pending : List (Nat × Nat)) (state : Search)
    (expected : ∀ entry ∈ pending, depths entry.1 = some entry.2)
    (seen : ∀ index depth, state.depths.getD index none = some depth → depths index = some depth)
    (fault : UnitFault) : unit.search fuel pending state ≠ some (.error fault) := by
  induction fuel generalizing pending state with
  | zero => cases pending <;> simp [search]
  | succ fuel ih =>
    cases pending with
    | nil => simp [search]
    | cons entry pending =>
      obtain ⟨index, depth⟩ := entry
      have here : depths index = some depth := expected (index, depth) List.mem_cons_self
      have rest : ∀ entry ∈ pending, depths entry.1 = some entry.2 :=
        fun entry member => expected entry (List.mem_cons_of_mem _ member)
      obtain ⟨_, _, found, checked, goes⟩ := consistent.step here
      simp only [search, found]
      cases before : state.depths.getD index none with
      | some earlier =>
        have same : earlier = depth := by
          have := seen index earlier before
          rw [here] at this
          exact (Option.some.inj this).symm
        simp only [same, if_true]
        exact ih pending state rest seen
      | none =>
        simp only [checked]
        refine ih _ _ ?_ ?_
        · intro entry member
          rcases List.mem_append.mp member with successor | later
          · exact goes successor
          · exact rest entry later
        · intro other known stored
          by_cases same : index = other
          · subst same
            by_cases inside : index < state.depths.size
            · simp [Array.getD_eq_getD_getElem?, inside] at stored
              rw [here, stored]
            · rw [Array.getD_eq_getD_getElem?, Array.getElem?_eq_none (by simp; omega)] at stored
              cases stored
          · rw [Array.getD_eq_getD_getElem?, Array.getElem?_setIfInBounds_ne same,
              ← Array.getD_eq_getD_getElem?] at stored
            exact seen other known stored

theorem Search.initial_depths (unit : LoadedUnit) (index depth : Nat) :
    (Search.initial unit).depths[index]? ≠ some (some depth) := by
  simp [Search.initial, Array.getElem?_replicate]

theorem exists_search_eq_some (unit : LoadedUnit) :
    ∃ answer, unit.search unit.searchFuel [(0, 0)] (Search.initial unit) = some answer ∧
      unit.verify = answer.mapError (.verification unit.function) :=
  ⟨_, (Option.some_get unit.search_ends).symm, rfl⟩

theorem verify_eq_ok_iff_search : unit.verify = .ok greatest ↔
    unit.search unit.searchFuel [(0, 0)] (Search.initial unit) = some (.ok greatest) := by
  obtain ⟨answer, ended, answered⟩ := exists_search_eq_some unit
  rw [ended, answered]
  cases answer <;> constructor <;> intro same <;> cases same <;> rfl

theorem verify_eq_ok (consistent : Consistent unit depths) : ∃ found, unit.verify = .ok found := by
  obtain ⟨answer, ended, answered⟩ := exists_search_eq_some unit
  cases answer with
  | ok found => exact ⟨found, answered⟩
  | error fault =>
    refine absurd ended (search_ne_error consistent _ [(0, 0)] _ (by simpa using consistent.start)
      ?_ fault)
    intro index depth stored
    rw [Array.getD_eq_getD_getElem?, Option.getD_eq_iff] at stored
    rcases stored with known | ⟨_, absent⟩
    · exact absurd known (Search.initial_depths unit index depth)
    · cases absent

/-! ## The check finds consistent depths -/

/-- Control can go on from an instruction to the next one or to a jump operand. -/
def Follows (index : Nat) (instr : Instruction Nat) (next : Nat) : Prop :=
  instr.terminates = false ∧ next = index + 1 ∨ next ∈ instr.targets

theorem mem_successors : (next, later) ∈ successors index instr after ↔
      later = after ∧ Follows index instr next := by
  cases ends : instr.terminates <;> simp [successors, Follows, ends] <;> grind

/-- What holds of the search in progress: instructions with a depth pass the check, and wherever
control goes on from them, the depth there is known or to be looked at. -/
structure Searching (unit : LoadedUnit) (pending : List (Nat × Nat)) (state : Search) : Prop where
  size : state.depths.size = unit.code.size
  start : state.depths[0]? = some (some 0) ∨ (0, 0) ∈ pending
  bound : ∀ entry ∈ pending, entry.2 ≤ state.greatest
  step : ∀ {index depth : Nat}, state.depths[index]? = some (some depth) →
    depth ≤ state.greatest ∧ ∃ instr after, unit.code[index]? = some instr ∧
      unit.checkInstruction index instr depth = .ok after ∧
      ∀ {next later : Nat}, (next, later) ∈ successors index instr after →
        state.depths[next]? = some (some later) ∨ (next, later) ∈ pending

theorem Searching.consistent (searching : Searching unit [] state) :
    Consistent unit (fun index => (state.depths[index]?).join) ∧
      ∀ index depth : Nat, (state.depths[index]?).join = some depth → depth ≤ state.greatest := by
  have joined : ∀ {index depth : Nat}, (state.depths[index]?).join = some depth ↔
      state.depths[index]? = some (some depth) := Option.join_eq_some_iff
  refine ⟨⟨joined.mpr (searching.start.resolve_right List.not_mem_nil), ?_⟩, ?_⟩
  · intro index depth known
    obtain ⟨_, instr, after, found, checked, goes⟩ := searching.step (joined.mp known)
    exact ⟨instr, after, found, checked,
      fun successor => joined.mpr ((goes successor).resolve_right List.not_mem_nil)⟩
  · intro index depth known
    exact (searching.step (joined.mp known)).1

/-- An instruction that is met again with its depth. -/
theorem Searching.skip (searching : Searching unit ((index, depth) :: pending) state)
    (known : state.depths[index]? = some (some depth)) : Searching unit pending state := by
  have settled : ∀ {next later},
      state.depths[next]? = some (some later) ∨ (next, later) ∈ (index, depth) :: pending →
        state.depths[next]? = some (some later) ∨ (next, later) ∈ pending := by
    intro next later reached
    rcases reached with there | member
    · exact .inl there
    · rcases mem_cons.mp member with same | other
      · cases same
        exact .inl known
      · exact .inr other
  refine ⟨searching.size, settled searching.start,
    fun entry member => searching.bound entry (List.mem_cons_of_mem _ member), ?_⟩
  intro other _ there
  obtain ⟨below, instr, after, found, checked, goes⟩ := searching.step there
  exact ⟨below, instr, after, found, checked, fun successor => settled (goes successor)⟩

/-- Where a depth is known after one more was found. -/
theorem getElem?_met {depths : Array (Option Nat)} {index depth other known : Nat}
    (unknown : depths[index]? = some none) :
    (depths.setIfInBounds index (some depth))[other]? = some (some known) ↔
      other = index ∧ known = depth ∨ depths[other]? = some (some known) := by
  have inside := (Array.getElem?_eq_some_iff.mp unknown).1
  rw [Array.getElem?_setIfInBounds]
  by_cases same : index = other
  · subst same
    rw [unknown, if_pos rfl, if_pos inside]
    simp [eq_comm]
  · simp [same, Ne.symm same]

/-- An instruction that is met for the first time. -/
theorem Searching.visit (searching : Searching unit ((index, depth) :: pending) state)
    (unknown : state.depths[index]? = some none) (found : unit.code[index]? = some instr)
    (checked : unit.checkInstruction index instr depth = .ok after) :
    Searching unit (successors index instr after ++ pending)
      ⟨state.depths.setIfInBounds index (some depth), max state.greatest after⟩ := by
  have settled : ∀ {next later : Nat},
      state.depths[next]? = some (some later) ∨ (next, later) ∈ (index, depth) :: pending →
        (state.depths.setIfInBounds index (some depth))[next]? = some (some later) ∨
          (next, later) ∈ successors index instr after ++ pending := by
    intro next later reached
    rcases reached with there | member
    · exact .inl ((getElem?_met unknown).mpr (.inr there))
    · rcases mem_cons.mp member with same | other
      · cases same
        exact .inl ((getElem?_met unknown).mpr (.inl ⟨rfl, rfl⟩))
      · exact .inr (List.mem_append_right _ other)
  have depthBound : depth ≤ state.greatest := searching.bound (index, depth) List.mem_cons_self
  refine ⟨by simpa using searching.size, settled searching.start, ?_, ?_⟩
  · intro entry member
    rcases List.mem_append.mp member with successor | other
    · have same : entry.2 = after := (mem_successors.mp successor).1
      simp only [same]
      omega
    · have := searching.bound entry (List.mem_cons_of_mem _ other)
      dsimp only
      omega
  · intro other known there
    rcases (getElem?_met unknown).mp there with ⟨rfl, rfl⟩ | there
    · refine ⟨by dsimp only; omega, instr, after, found, checked, ?_⟩
      exact fun successor => .inr (List.mem_append_left _ successor)
    · obtain ⟨_, instr', after', found', checked', goes⟩ := searching.step there
      exact ⟨by dsimp only; omega, instr', after', found', checked',
        fun successor => settled (goes successor)⟩

def searched (unit : LoadedUnit) : Nat → List (Nat × Nat) → Search → Search
  | _, [], state => state
  | 0, _ :: _, state => state
  | fuel + 1, (index, depth) :: pending, state =>
    match unit.code[index]? with
    | none => state
    | some instr =>
      match state.depths.getD index none with
      | some _ => unit.searched fuel pending state
      | none =>
        match unit.checkInstruction index instr depth with
        | .error _ => state
        | .ok after =>
          unit.searched fuel (successors index instr after ++ pending)
            ⟨state.depths.setIfInBounds index (some depth), max state.greatest after⟩

def depthAt (unit : LoadedUnit) (index : Nat) : Option Nat :=
  let ended := unit.searched unit.searchFuel [(0, 0)] (.initial unit)
  ended.depths[index]?.join

/-- What is kept by either way to take up an entry holds when a search ends. -/
theorem search_invariant (Holds : List (Nat × Nat) → Search → Prop)
    (size : ∀ {pending state}, Holds pending state → state.depths.size = unit.code.size)
    (skip : ∀ {index depth pending state}, Holds ((index, depth) :: pending) state →
      state.depths[index]? = some (some depth) → Holds pending state)
    (visit : ∀ {index depth after pending state instr},
      Holds ((index, depth) :: pending) state → state.depths[index]? = some none →
      unit.code[index]? = some instr → unit.checkInstruction index instr depth = .ok after →
      Holds (successors index instr after ++ pending)
        ⟨state.depths.setIfInBounds index (some depth), max state.greatest after⟩)
    (holds : Holds pending state) (ran : unit.search fuel pending state = some (.ok greatest)) :
    Holds [] (unit.searched fuel pending state) ∧
      (unit.searched fuel pending state).greatest = greatest := by
  induction fuel generalizing pending state with
  | zero =>
    cases pending with
    | cons => cases ran
    | nil =>
      cases ran
      exact ⟨holds, rfl⟩
  | succ fuel ih =>
    cases pending with
    | nil =>
      cases ran
      exact ⟨holds, rfl⟩
    | cons entry pending =>
      obtain ⟨index, depth⟩ := entry
      simp only [search] at ran
      simp only [searched]
      cases found : unit.code[index]? with
      | none =>
        rw [found] at ran
        cases ran
      | some instr =>
        rw [found] at ran
        dsimp only
        have inside : index < state.depths.size := by
          rw [size holds]
          exact (Array.getElem?_eq_some_iff.mp found).1
        have listed : state.depths[index]? = some (state.depths.getD index none) := by
          rw [Array.getD_eq_getD_getElem?, Array.getElem?_eq_getElem inside]
          rfl
        cases before : state.depths.getD index none with
        | some =>
          simp only [before] at ran
          rw [before] at listed
          split at ran
          · rename_i same
            subst same
            exact ih (skip holds listed) ran
          · cases ran
        | none =>
          simp only [before] at ran
          rw [before] at listed
          cases checked : unit.checkInstruction index instr depth with
          | error =>
            rw [checked] at ran
            cases ran
          | ok after =>
            rw [checked] at ran
            exact ih (visit holds listed found checked) ran

theorem searching_initial (unit : LoadedUnit) : Searching unit [(0, 0)] (Search.initial unit) :=
  ⟨Array.size_replicate, .inr List.mem_cons_self, by simp,
    fun known => absurd known (Search.initial_depths unit _ _)⟩

/-- The depths that the check finds are consistent, and its answer is the greatest. -/
theorem consistent_of_verify (passed : unit.verify = .ok greatest) : Consistent unit unit.depthAt ∧
      ∀ index depth, unit.depthAt index = some depth → depth ≤ greatest := by
  obtain ⟨ended, rfl⟩ := search_invariant (Searching unit) Searching.size Searching.skip
    Searching.visit (searching_initial unit) (verify_eq_ok_iff_search.mp passed)
  exact ended.consistent

/-- The depth that is written on a unit plays no part in the check. -/
theorem search_maxStack (unit : LoadedUnit) (maxStack fuel : Nat) (pending : List (Nat × Nat))
    (state : Search) :
    search { unit with maxStack } fuel pending state = unit.search fuel pending state := by
  induction fuel generalizing pending state with
  | zero => cases pending <;> rfl
  | succ fuel ih =>
    cases pending with
    | nil => rfl
    | cons _ pending =>
      simp only [search, ih]
      rfl

theorem verify_maxStack (unit : LoadedUnit) (maxStack : Nat) :
    verify { unit with maxStack } = unit.verify := by
  obtain ⟨answer, ended, answered⟩ := exists_search_eq_some unit
  obtain ⟨other, ended', answered'⟩ := exists_search_eq_some { unit with maxStack }
  rw [search_maxStack] at ended'
  rw [answered, answered', Option.some.inj (ended'.symm.trans ended)]

end TwinEngine.Machine.LoadedUnit
