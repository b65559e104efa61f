import TwinEngine.Proofs.Machine.Loading

/-!
Contract: code under construction, with names in place of labels.

Owns: what a unit under construction represents, how each way of appending to it changes that, and
the loaded form of a finished unit.

Jump operands are names here, and each name that is defined marks the index of an instruction.
Labels are the emitter's own affair.
-/

namespace TwinEngine.Machine

open List Emitter
open TwinEngine.Machine.Instruction (retarget retarget_congr targets targets_retarget)

def Emitter.labelOf (emitter : Emitter) (name : Nat) : Nat := (emitter.names.lookup name).getD 0

/-- Code with names, as the emitter holds it. -/
def Emitter.labelled (emitter : Emitter) (lowered : List (Instruction Nat)) :
    List (Instruction JumpTarget) :=
  lowered.map (Instruction.retarget fun name => .label (emitter.labelOf name))

/-- A unit under construction represents code with names, and marks for the names defined so far. -/
structure Represents (lowered : List (Instruction Nat)) (marks : List (Nat × Nat))
    (emitter : Emitter) : Prop where
  known : ∀ instr ∈ lowered, ∀ name ∈ instr.targets,
    (emitter.names.lookup name).isSome
  code : emitter.Holds (emitter.labelled lowered)
  size : emitter.size = position lowered lowered.length
  bounded : ∀ {name label : Nat}, emitter.names.lookup name = some label →
    label < emitter.labels.size
  distinct : ∀ {name other label : Nat}, emitter.names.lookup name = some label →
    emitter.names.lookup other = some label → name = other
  placed : ∀ {name label : Nat}, emitter.names.lookup name = some label →
    emitter.labels[label]? = some ((marks.lookup name).map (position lowered))
  marked : ∀ {name index : Nat}, marks.lookup name = some index →
    (emitter.names.lookup name).isSome ∧ index ≤ lowered.length

theorem represents_new (function localSlots : Nat) :
    Represents [] [] (new function localSlots) := by
  refine ⟨by simp, ⟨rfl, rfl⟩, rfl, ?_, ?_, ?_, ?_⟩ <;> intros <;> simp_all [new]

theorem position_append {τ : Type} {code : List (Instruction τ)} (more : List (Instruction τ))
    (inside : index ≤ code.length) : position (code ++ more) index = position code index := by
  rw [position, position, take_append_of_le_length inside]

theorem position_append_length {τ : Type} (code more : List (Instruction τ)) :
    position (code ++ more) (code ++ more).length =
      position code code.length + position more more.length := by
  simp only [position, take_length, map_append, sum_append]

namespace Represents

variable {lowered : List (Instruction Nat)} {marks : List (Nat × Nat)} {emitter : Emitter}

section

variable (represents : Represents lowered marks emitter)

include represents

theorem congr (instructions : other.instructions = emitter.instructions)
    (fixups : other.fixups = emitter.fixups) (labels : other.labels = emitter.labels)
    (size : other.size = emitter.size)
    (names : other.names = emitter.names) : Represents lowered marks other := by
  have same : other.labelOf = emitter.labelOf := by
    funext name
    rw [labelOf, names, labelOf]
  constructor
  · rw [names]
    exact represents.known
  · rw [Holds, labelled, instructions, fixups, same]
    exact represents.code
  · rw [size]
    exact represents.size
  · intro name label
    rw [names, labels]
    exact represents.bounded
  · intro name other label
    rw [names]
    exact represents.distinct
  · intro name label
    rw [names, labels]
    exact represents.placed
  · intro name _
    rw [names]
    exact represents.marked

theorem push (instr : Instruction Nat)
    (known : ∀ name ∈ instr.targets, (emitter.names.lookup name).isSome) :
    Represents (lowered ++ [instr]) marks
      (emitter.push (instr.retarget fun name => .label (emitter.labelOf name))) := by
  constructor
  · intro other member name jumps
    rcases mem_append.mp member with before | last
    · exact represents.known other before name jumps
    · rw [mem_singleton.mp last] at jumps
      exact known name jumps
  · have pushed := represents.code.push (instr.retarget fun name => .label
      (emitter.labelOf name))
    rw [labelled, ← map_singleton, ← map_append] at pushed
    exact pushed
  · rw [position_append_length, Emitter.push]
    simp [represents.size, position]
  · exact represents.bounded
  · exact represents.distinct
  · intro name label found
    refine (represents.placed found).trans (congrArg some ?_)
    cases marked : marks.lookup name with
    | none => rfl
    | some index => simp [position_append [instr] (represents.marked marked).2]
  · intro name index marked
    obtain ⟨named, _⟩ := represents.marked marked
    exact ⟨named, by simp; omega⟩

theorem emit (action : Action) :
    Represents (lowered ++ [.plain action]) marks (emitter.emit action) :=
  represents.push (.plain action) (by simp [targets])

end

theorem names_labelFor (emitter : Emitter) (name : Nat) :
    (emitter.labelFor name).2.names.lookup name = some (emitter.labelFor name).1 := by
  unfold labelFor
  split
  · assumption
  · simp

section

variable (represents : Represents lowered marks emitter)

include represents

theorem labelFor (name : Nat) : Represents lowered marks (emitter.labelFor name).2 := by
  unfold Emitter.labelFor
  cases found : emitter.names.lookup name with
  | some label => exact represents
  | none =>
    have unmarked : marks.lookup name = none := by
      cases marked : marks.lookup name with
      | none => rfl
      | some index =>
        have := (represents.marked marked).1
        rw [found] at this
        cases this
    have kept : ∀ {other}, other ≠ name →
        ((name, emitter.labels.size) :: emitter.names).lookup other =
          emitter.names.lookup other := by
      intro other apart
      rw [lookup_cons, beq_eq_false_iff_ne.mpr apart]
    have own : ((name, emitter.labels.size) :: emitter.names).lookup name =
        some emitter.labels.size := by simp
    have apart : ∀ {other}, (emitter.names.lookup other).isSome → other ≠ name := by
      intro other some same
      rw [same, found] at some
      cases some
    simp only [Emitter.allocLabel]
    constructor
    · intro instr member other jumps
      have before := represents.known instr member other jumps
      rw [kept (apart before)]
      exact before
    · have same : lowered.map (retarget fun other => JumpTarget.label
          ((((name, emitter.labels.size) :: emitter.names).lookup other).getD 0)) =
          emitter.labelled lowered := by
        refine map_congr_left fun instr member => retarget_congr fun other jumps => ?_
        rw [kept (apart (represents.known instr member other jumps)), labelOf]
      exact Eq.subst (motive := emitter.Holds) same.symm represents.code
    · exact represents.size
    · intro other label lookup
      rw [Array.size_push]
      by_cases same : other = name
      · rw [same, own] at lookup
        cases lookup
        omega
      · rw [kept same] at lookup
        have := represents.bounded lookup
        omega
    · intro left right label leftFound rightFound
      by_cases sameLeft : left = name
      · by_cases sameRight : right = name
        · rw [sameLeft, sameRight]
        · rw [sameLeft, own] at leftFound
          rw [kept sameRight] at rightFound
          cases leftFound
          have := represents.bounded rightFound
          omega
      · rw [kept sameLeft] at leftFound
        by_cases sameRight : right = name
        · rw [sameRight, own] at rightFound
          cases rightFound
          have := represents.bounded leftFound
          omega
        · rw [kept sameRight] at rightFound
          exact represents.distinct leftFound rightFound
    · intro other label lookup
      by_cases same : other = name
      · rw [same, own] at lookup
        cases lookup
        rw [same, unmarked]
        simp
      · rw [kept same] at lookup
        have inside := represents.bounded lookup
        rw [Array.getElem?_push_lt inside, ← Array.getElem?_eq_getElem inside]
        exact represents.placed lookup
    · intro other index marked
      have ⟨named, below⟩ := represents.marked marked
      rw [kept (apart named)]
      exact ⟨named, below⟩

/-- Define a name in front of the next instruction. -/
theorem define (found : emitter.names.lookup name = some label) :
    Represents lowered ((name, lowered.length) :: marks) (emitter.define label) := by
  constructor
  · exact represents.known
  · exact represents.code
  · exact represents.size
  · intro other label' lookup
    rw [Emitter.define, Array.size_setIfInBounds]
    exact represents.bounded lookup
  · exact represents.distinct
  · intro other label' lookup
    have inside := represents.bounded lookup
    by_cases same : other = name
    · subst same
      have sameLabel : label' = label := Option.some.inj (lookup.symm.trans found)
      subst sameLabel
      simp [Emitter.define, inside, represents.size]
    · have apart : label ≠ label' := by
        intro sameLabel
        subst sameLabel
        exact same (represents.distinct lookup found)
      rw [Emitter.define, Array.getElem?_setIfInBounds_ne apart, lookup_cons,
        beq_eq_false_iff_ne.mpr same]
      exact represents.placed lookup
  · intro other _ marked
    by_cases same : other = name
    · subst same
      rw [lookup_cons_self, Option.some.injEq] at marked
      exact ⟨by rw [Emitter.define, found]; rfl, by omega⟩
    · rw [lookup_cons, beq_eq_false_iff_ne.mpr same] at marked
      exact represents.marked marked

theorem labelsFor (names : List Nat) : Represents lowered marks (emitter.labelsFor names).2 ∧
      (∀ name label, emitter.names.lookup name = some label →
        (emitter.labelsFor names).2.names.lookup name = some label) ∧
      (∀ name ∈ names, ((emitter.labelsFor names).2.names.lookup name).isSome) ∧
      (emitter.labelsFor names).1 = names.map (emitter.labelsFor names).2.labelOf := by
  induction names generalizing emitter with
  | nil => exact ⟨represents, fun _ _ found => found, by simp, rfl⟩
  | cons name names ih =>
    obtain ⟨represents', kept, known, labels⟩ := ih (represents.labelFor name)
    have own := kept name _ (names_labelFor emitter name)
    simp only [Emitter.labelsFor]
    refine ⟨represents', ?_, ?_, ?_⟩
    · intro other label found
      refine kept other label ?_
      unfold Emitter.labelFor
      split
      · exact found
      · rename_i fresh
        have apart : other ≠ name := by
          intro same
          rw [same, fresh] at found
          cases found
        rw [lookup_cons, beq_eq_false_iff_ne.mpr apart]
        exact found
    · intro other member
      rcases mem_cons.mp member with same | later
      · rw [same, own]
        rfl
      · exact known other later
    · rw [labels, map_cons, List.cons.injEq]
      exact ⟨by rw [Emitter.labelOf, own]; rfl, rfl⟩

theorem isDefined_eq (found : emitter.names.lookup name = some label) :
    emitter.isDefined label = (marks.lookup name).isSome := by
  rw [isDefined, Array.getD_eq_getD_getElem?, represents.placed found]
  simp

end

/-! ## The loaded form -/

def target (marks : List (Nat × Nat)) (name : Nat) : Nat := (marks.lookup name).getD 0

theorem exists_labelled (represents : Represents lowered marks emitter)
    (defined : ∀ instr ∈ lowered, ∀ name ∈ instr.targets, ∃ index, marks.lookup name = some index)
    (near : emitter.size < 2 ^ 31 ∨ ∃ resolved, emitter.resolveFixups = .ok resolved)
    (encodable : ∀ instr ∈ lowered, instr.Encodable) :
    ∃ place, Labelled (emitter.labelled lowered) emitter.labels place ∧
      (∀ {name label}, emitter.names.lookup name = some label → place label = target marks name) ∧
      (emitter.labelled lowered).map (retarget (indexOf place)) =
        lowered.map (retarget (target marks)) := by
  have each : ∀ label, ∃ index, ∀ name, emitter.names.lookup name = some label →
      index = target marks name := by
    intro label
    by_cases named : ∃ name, emitter.names.lookup name = some label
    · obtain ⟨name, found⟩ := named
      refine ⟨target marks name, fun _ lookup => ?_⟩
      rw [represents.distinct lookup found]
    · exact ⟨0, fun name found => absurd ⟨name, found⟩ named⟩
  obtain ⟨place, places⟩ := Classical.axiomOfChoice each
  have positions : ∀ index, position (emitter.labelled lowered) index = position lowered index :=
    position_map_retarget lowered _
  have length : (emitter.labelled lowered).length = lowered.length := length_map _
  have known : ∀ instr ∈ emitter.labelled lowered, ∀ target ∈ instr.targets,
      ∃ id, target = .label id ∧ place id ≤ lowered.length ∧
        emitter.labels.getD id none =
          some (position (emitter.labelled lowered) (place id)) := by
    intro instr member jump jumps
    obtain ⟨original, listed, rfl⟩ := mem_map.mp member
    rw [targets_retarget] at jumps
    obtain ⟨name, named, rfl⟩ := mem_map.mp jumps
    obtain ⟨label, found⟩ :=
      Option.isSome_iff_exists.mp (represents.known original listed name named)
    obtain ⟨index, marked⟩ := defined original listed name named
    have same : emitter.labelOf name = label := by rw [labelOf, found]; rfl
    have there : place label = index := by
      rw [places label name found, target, marked]
      rfl
    refine ⟨label, by rw [same], ?_, ?_⟩
    · rw [there]
      exact (represents.marked marked).2
    · rw [Array.getD_eq_getD_getElem?, represents.placed found, marked, there, positions]
      rfl
  refine ⟨place, ⟨?_, ?_, ?_⟩, fun found => places _ _ found, ?_⟩
  · intro instr member jump jumps
    obtain ⟨id, same, _, known⟩ := known instr member jump jumps
    exact ⟨id, same, known⟩
  · intro index instr found id member
    obtain ⟨_, same, inside, known⟩ := known _ (mem_of_getElem? found) _ member
    cases same
    rcases near with short | ⟨resolved, ran⟩
    · refine near_of_short ?_ (length ▸ inside) found
      rwa [positions, length, ← represents.size]
    · obtain ⟨_, near⟩ := distanceTo_of_resolveFixups represents.code ran found member
      exact near_of_distanceTo known near
  · intro instr member
    obtain ⟨original, listed, rfl⟩ := mem_map.mp member
    simpa [Instruction.Encodable] using encodable original listed
  · rw [labelled, List.map_map]
    refine map_congr_left fun instr member => ?_
    rw [Function.comp_apply, Instruction.retarget_retarget]
    refine retarget_congr fun name jumps => ?_
    obtain ⟨label, found⟩ :=
      Option.isSome_iff_exists.mp (represents.known instr member name jumps)
    rw [Function.comp_apply, indexOf, labelOf, found]
    exact places label name found

theorem exists_places (represents : Represents lowered marks emitter)
    (defined : ∀ instr ∈ lowered, ∀ name ∈ instr.targets,
      ∃ index, marks.lookup name = some index ∧ index < lowered.length)
    (near : emitter.size < 2 ^ 31 ∨ ∃ resolved, emitter.resolveFixups = .ok resolved)
    (encodable : ∀ instr ∈ lowered, instr.Encodable) :
    ∃ code place, emitter.Places code place ∧ (emitter.size < 2 ^ 31 → Narrow code place) ∧
      code.map (retarget (indexOf place)) = lowered.map (retarget (target marks)) := by
  obtain ⟨place, labels, places, same⟩ := represents.exists_labelled
    (fun instr member name jumps =>
      (defined instr member name jumps).imp fun _ marked => marked.1) near encodable
  have placed : Placed _ _ place := ⟨labels, fun instr member _ jumps => ?_⟩
  · refine ⟨_, place, ⟨placed, represents.code⟩, fun short => placed.narrow_of_short ?_, same⟩
    rwa [labelled, position_map_retarget, length_map, ← represents.size]
  obtain ⟨original, listed, rfl⟩ := mem_map.mp member
  rw [targets_retarget] at jumps
  obtain ⟨name, named, here⟩ := mem_map.mp jumps
  cases here
  obtain ⟨label, found⟩ := Option.isSome_iff_exists.mp (represents.known original listed name named)
  obtain ⟨index, marked, inside⟩ := defined original listed name named
  have there : emitter.labelOf name = label := by rw [labelOf, found]; rfl
  rw [there, places found, target, marked, labelled, length_map]
  exact inside

end Represents

end TwinEngine.Machine
