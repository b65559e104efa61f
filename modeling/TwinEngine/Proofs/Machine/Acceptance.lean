import Mathlib.Order.Bounds.Basic
import TwinEngine.Proofs.Machine.Verifier

/-!
Contract: the units that the check accepts.

Owns: the indices that control can come to, assignments of a depth to each of them, and that the
check accepts a unit exactly if it has such an assignment, with the greatest depth as its answer.

Does not own: the search itself (`Proofs.Machine.Verifier`).
-/

namespace TwinEngine.Machine.LoadedUnit

variable {unit : LoadedUnit}

/-- Control can come to an index, whether or not there is an instruction. -/
inductive Reachable (unit : LoadedUnit) : Nat → Prop
  | start : Reachable unit 0
  | step {index next : Nat} {instr : Instruction Nat} : Reachable unit index →
      unit.code[index]? = some instr → Follows index instr next → Reachable unit next

/-- An instruction can be performed on operands of a depth, and leaves another. -/
structure Performs (unit : LoadedUnit) (instr : Instruction Nat) (depth after : Nat) :
    Prop where
  effect : ∃ pops pushes, unit.stackEffect instr = .ok (pops, pushes) ∧ pops ≤ depth ∧
    after = depth - pops + pushes
  locals : ∀ {width : Width} {slot : UInt16},
    instr = .plain (.load width slot) ∨ instr = .plain (.store width slot) →
      slot.toNat + width.slots ≤ unit.localSlots
  leave : ∀ {slots : UInt16}, instr = .plain (.leave slots) →
    slots.toNat = returnSlots unit.signature

/-- A depth for each index that control can come to: there is an instruction that can be performed
at that depth, and wherever control goes on, the depth is the one that it leaves. -/
structure Assigns (unit : LoadedUnit) (depth : Nat → Nat) : Prop where
  start : depth 0 = 0
  step : ∀ {index : Nat}, unit.Reachable index → ∃ instr after,
    unit.code[index]? = some instr ∧ unit.Performs instr (depth index) after ∧
      ∀ {next : Nat}, Follows index instr next → depth next = after

/-- Depths that the instructions in reach leave, and that of an empty stack. -/
def leftDepths (unit : LoadedUnit) (depth : Nat → Nat) : Set Nat :=
  {after | after = 0 ∨ ∃ index instr, unit.Reachable index ∧
    unit.code[index]? = some instr ∧ unit.Performs instr (depth index) after}

/-! ## The check of one instruction -/

theorem touchedLocal_lt_iff : (∀ slot, touchedLocal instr = some slot → slot < bound) ↔
      ∀ {width slot}, instr = .plain (.load width slot) ∨ instr = .plain (.store width slot) →
          slot.toNat + width.slots ≤ bound := by
  have positive (width : Width) : 0 < width.slots := by cases width <;> decide
  constructor
  · rintro below width slot (rfl | rfl)
    all_goals
      have := below _ rfl
      omega
  · intro inside slot touched
    unfold touchedLocal at touched
    split at touched
    case h_3 => cases touched
    all_goals
      rename_i width first
      have := positive width
      have := @inside width first (by simp)
      cases touched
      omega

theorem checkInstruction_iff_performs : unit.checkInstruction index instr depth = .ok after ↔
      unit.Performs instr depth after := by
  rw [checkInstruction_eq_ok_iff]
  constructor
  · rintro ⟨touches, effect, leave⟩
    exact ⟨effect, touchedLocal_lt_iff.mp touches, leave _⟩
  · intro done
    exact ⟨touchedLocal_lt_iff.mpr done.locals, done.effect, fun _ => done.leave⟩

/-! ## From the search to an assignment -/

/-- What holds of the search beyond `Searching`: only indices in reach are met, and the greatest
depth is one that an instruction met so far leaves. -/
structure Surveying (unit : LoadedUnit) (pending : List (Nat × Nat)) (state : Search) : Prop
    extends Searching unit pending state where
  ahead : ∀ entry ∈ pending, unit.Reachable entry.1
  met : ∀ {index depth : Nat}, state.depths[index]? = some (some depth) → unit.Reachable index
  greatest : IsGreatest {after | after = 0 ∨ ∃ (index depth : Nat) (instr : Instruction Nat),
    state.depths[index]? = some (some depth) ∧ unit.code[index]? = some instr ∧
      unit.Performs instr depth after} state.greatest

theorem surveying_initial (unit : LoadedUnit) : Surveying unit [(0, 0)] (Search.initial unit) where
  toSearching := searching_initial unit
  ahead entry member := by
    rw [List.mem_singleton.mp member]
    exact .start
  met known := absurd known (Search.initial_depths unit _ _)
  greatest := by
    refine ⟨.inl rfl, ?_⟩
    rintro _ (rfl | ⟨index, depth, _, known, _⟩)
    · exact Nat.le_refl _
    · exact absurd known (Search.initial_depths unit index depth)

theorem Surveying.skip (surveying : Surveying unit ((index, depth) :: pending) state)
    (known : state.depths[index]? = some (some depth)) : Surveying unit pending state :=
  ⟨surveying.toSearching.skip known,
    fun entry member => surveying.ahead entry (List.mem_cons_of_mem _ member), surveying.met,
    surveying.greatest⟩

theorem Surveying.visit (surveying : Surveying unit ((index, depth) :: pending) state)
    (unknown : state.depths[index]? = some none) (found : unit.code[index]? = some instr)
    (checked : unit.checkInstruction index instr depth = .ok after) :
    Surveying unit (successors index instr after ++ pending)
      ⟨state.depths.setIfInBounds index (some depth), max state.greatest after⟩ := by
  have here : unit.Reachable index := surveying.ahead _ List.mem_cons_self
  have stored {other known : Nat} := @getElem?_met _ _ depth other known unknown
  have performs := checkInstruction_iff_performs.mp checked
  refine ⟨surveying.toSearching.visit unknown found checked, ?_, ?_, ?_⟩
  · intro entry member
    rcases List.mem_append.mp member with successor | other
    · exact here.step found (mem_successors.mp successor).2
    · exact surveying.ahead entry (List.mem_cons_of_mem _ other)
  · intro other known there
    rcases stored.mp there with ⟨rfl, -⟩ | before
    · exact here
    · exact surveying.met before
  · constructor
    · dsimp only
      rcases Nat.le_total state.greatest after with less | more
      · rw [Nat.max_eq_right less]
        exact .inr ⟨index, depth, instr, stored.mpr (.inl ⟨rfl, rfl⟩), found, performs⟩
      · rw [Nat.max_eq_left more]
        rcases surveying.greatest.1 with zero | ⟨other, known, there, before, rest⟩
        · exact .inl zero
        · exact .inr ⟨other, known, there, stored.mpr (.inr before), rest⟩
    · rintro _ (rfl | ⟨other, known, there, before, found', done⟩)
      · exact Nat.zero_le _
      · rcases stored.mp before with ⟨rfl, rfl⟩ | before
        · cases found.symm.trans found'
          cases checked.symm.trans (checkInstruction_iff_performs.mpr done)
          exact Nat.le_max_right _ _
        · have below := surveying.greatest.2 (.inr ⟨other, known, there, before, found', done⟩)
          exact Nat.le_trans below (Nat.le_max_left _ _)

/-- A check that succeeds finds an assignment, and its answer is the greatest depth. -/
theorem exists_assigns
    (ran : unit.search fuel [(0, 0)] (Search.initial unit) = some (.ok greatest)) :
    ∃ depth, unit.Assigns depth ∧ IsGreatest (unit.leftDepths depth) greatest := by
  obtain ⟨ended, rfl⟩ := search_invariant (Surveying unit) (·.size) Surveying.skip Surveying.visit
    (surveying_initial unit) ran
  generalize unit.searched fuel [(0, 0)] (Search.initial unit) = final at ended
  let depth (index : Nat) : Nat := (final.depths[index]?.join).getD 0
  have depth_eq {index known : Nat} (stored : final.depths[index]? = some (some known)) :
      depth index = known := by simp [depth, stored]
  have stored {index : Nat} (reachable : unit.Reachable index) :
      final.depths[index]? = some (some (depth index)) := by
    have known : ∃ known, final.depths[index]? = some (some known) := by
      induction reachable with
      | start => exact ⟨0, ended.start.resolve_right List.not_mem_nil⟩
      | step _ found follows known =>
        obtain ⟨_, known⟩ := known
        obtain ⟨_, _, after, here, _, goes⟩ := ended.step known
        cases here.symm.trans found
        exact ⟨after, (goes (mem_successors.mpr ⟨rfl, follows⟩)).resolve_right List.not_mem_nil⟩
    obtain ⟨known, stored⟩ := known
    rwa [depth_eq stored]
  refine ⟨depth, ⟨depth_eq (stored .start ▸ ended.start.resolve_right List.not_mem_nil), ?_⟩, ?_⟩
  · intro index reachable
    obtain ⟨_, instr, after, found, checked, goes⟩ := ended.step (stored reachable)
    refine ⟨instr, after, found, checkInstruction_iff_performs.mp checked, fun follows => ?_⟩
    exact depth_eq ((goes (mem_successors.mpr ⟨rfl, follows⟩)).resolve_right List.not_mem_nil)
  · convert ended.greatest using 1
    ext after
    refine or_congr_right ⟨?_, ?_⟩
    · rintro ⟨index, instr, reachable, found, performs⟩
      exact ⟨index, _, instr, stored reachable, found, performs⟩
    · rintro ⟨index, known, instr, there, found, performs⟩
      exact ⟨index, instr, ended.met there, found, depth_eq there ▸ performs⟩

/-! ## Assignments are unique -/

section

variable (assigns : unit.Assigns depth)

include assigns

theorem Assigns.depth_eq (also : unit.Assigns other) (reachable : unit.Reachable index) :
    depth index = other index := by
  induction reachable with
  | start => rw [assigns.start, also.start]
  | @step index next instr before found follows same =>
    obtain ⟨_, _, here, performs, goes⟩ := assigns.step before
    obtain ⟨_, _, there, performs', goes'⟩ := also.step before
    cases here.symm.trans found
    cases there.symm.trans found
    obtain ⟨_, _, effect, -, rfl⟩ := performs.effect
    obtain ⟨_, _, effect', -, rfl⟩ := performs'.effect
    cases effect.symm.trans effect'
    rw [goes follows, goes' follows, same]

theorem Assigns.leftDepths_eq (also : unit.Assigns other) :
    unit.leftDepths depth = unit.leftDepths other := by
  ext after
  refine or_congr_right (exists₂_congr fun _ _ => and_congr_right fun reachable => ?_)
  rw [assigns.depth_eq also reachable]

/-- An assignment gives consistent depths to what can be reached. -/
theorem Assigns.exists_consistent : ∃ depths, Consistent unit depths := by
  classical
  refine ⟨fun index => if unit.Reachable index then some (depth index) else none, ?_, ?_⟩
  · rw [if_pos .start, assigns.start]
  · intro index _ here
    rw [Option.ite_none_right_eq_some] at here
    obtain ⟨reachable, here⟩ := here
    cases here
    obtain ⟨instr, after, found, performs, goes⟩ := assigns.step reachable
    refine ⟨instr, after, found, checkInstruction_iff_performs.mpr performs, ?_⟩
    intro _ _ successor
    obtain ⟨rfl, follows⟩ := mem_successors.mp successor
    rw [if_pos (reachable.step found follows), goes follows]

end

/-- The check accepts exactly the units in which each index that control can come to has one depth:
the first has depth 0, at each there is an instruction that can be performed, and each that follows
has the depth that it leaves. The answer is then the greatest depth that is left. The search comes
to its end, a fault or an empty list, within its steps, and the check answers what it found. -/
theorem verify_accepts_iff (unit : LoadedUnit) :
    (∃ answer, unit.search unit.searchFuel [(0, 0)] (Search.initial unit) = some answer ∧
      unit.verify = answer.mapError (.verification unit.function)) ∧
    ∀ greatest, unit.verify = .ok greatest ↔
      ∃ depth, unit.Assigns depth ∧ IsGreatest (unit.leftDepths depth) greatest := by
  refine ⟨exists_search_eq_some unit, fun greatest => ?_⟩
  refine ⟨fun passed => exists_assigns (verify_eq_ok_iff_search.mp passed), ?_⟩
  rintro ⟨depth, assigns, most⟩
  obtain ⟨depths, consistent⟩ := assigns.exists_consistent
  obtain ⟨answer, passed⟩ := verify_eq_ok consistent
  obtain ⟨other, also, answers⟩ := exists_assigns (verify_eq_ok_iff_search.mp passed)
  rw [also.leftDepths_eq assigns] at answers
  rw [passed, answers.unique most]

end TwinEngine.Machine.LoadedUnit
