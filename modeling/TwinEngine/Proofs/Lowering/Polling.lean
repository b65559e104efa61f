import TwinEngine.Proofs.Compilation.Resolution

/-!
Contract: no compiled loop escapes the poll of the interrupt flag.

Owns: code in which calls and backward jumps stand behind polls, that lowering makes such code
whatever it lowers, and that control cannot go round in it without a poll.
-/

namespace TwinEngine.Lowering

open Machine hiding Instruction
open Machine.Instruction (retarget targets_retarget)

/-! ## Lowered code -/

/-- A call, or a jump to a name that is marked at a place or before it. -/
def Needs (marks : List (Nat × Nat)) (place : Nat) (instr : Machine.Instruction Nat) : Prop :=
  (∃ action, instr = .plain action ∧ IsCall action) ∨
    ∃ name ∈ instr.targets, ∃ index, marks.lookup name = some index ∧ index ≤ place

theorem not_needs_plain (other : ¬ IsCall action) (marks : List (Nat × Nat)) (place : Nat) :
    ¬ Needs marks place (.plain action) := by
  rintro (⟨action, same, call⟩ | ⟨_, absurd, _⟩)
  · cases same
    exact other call
  · cases absurd

/-- Instructions that need it stand behind a poll, and no name marks a place between the two. -/
structure Guarded (lowered : Segment) (marks : List (Nat × Nat)) : Prop where
  encodable : ∀ instr ∈ lowered, instr.Encodable
  polls : ∀ {place : Nat} {instr : Machine.Instruction Nat},
    lowered[place]? = some instr → Needs marks place instr →
    ∃ before, place = before + 1 ∧ lowered[before]? = some (.plain .checkInterrupt) ∧
      ∀ name, marks.lookup name ≠ some place

section Guarded

variable {lowered : Segment} {marks : List (Nat × Nat)} {instr : Machine.Instruction Nat}

variable (guarded : Guarded lowered marks)

include guarded

theorem Guarded.append (encodable : instr.Encodable)
    (last : Needs marks lowered.length instr → ∃ before, lowered.length = before + 1 ∧
      lowered[before]? = some (.plain .checkInterrupt) ∧
        ∀ name, marks.lookup name ≠ some lowered.length) : Guarded (lowered ++ [instr]) marks := by
  refine ⟨?_, fun {place other} found needs => ?_⟩
  · intro other member
    rcases List.mem_append.mp member with old | new
    · exact guarded.encodable other old
    · exact List.mem_singleton.mp new ▸ encodable
  · have guard : ∃ before, place = before + 1 ∧ lowered[before]? = some (.plain .checkInterrupt) ∧
        ∀ name, marks.lookup name ≠ some place := by
      rcases Nat.lt_or_eq_of_le (Nat.le_of_lt_succ (by
        simpa using (lt_length found))) with inside | rfl
      · rw [List.getElem?_append_left inside] at found
        exact guarded.polls found needs
      · rw [List.getElem?_concat_length] at found
        cases found
        exact last needs
    obtain ⟨before, rfl, polled, unmarked⟩ := guard
    have inside := lt_length polled
    exact ⟨before, rfl, by rwa [List.getElem?_append_left inside], unmarked⟩

section

variable (bounded : ∀ {name index : Nat}, marks.lookup name = some index → index ≤ lowered.length)
  (encodable : instr.Encodable)

include bounded encodable

theorem Guarded.poll : Guarded (lowered ++ [.plain .checkInterrupt, instr]) marks := by
  have polled : Guarded (lowered ++ [.plain .checkInterrupt]) marks :=
    guarded.append (Nat.zero_le _) fun needs => absurd needs (not_needs_plain id _ _)
  have whole := polled.append encodable fun _ =>
    ⟨lowered.length, by simp, by simp, fun _ marked => by
      have within := bounded marked
      rw [List.length_append, List.length_singleton] at within
      omega⟩
  rwa [List.append_assoc] at whole

theorem Guarded.pollIf (forward : Needs marks lowered.length instr → backwards = true) :
    Guarded (lowered ++ pollIf backwards instr) marks := by
  cases backwards with
  | true => exact guarded.poll bounded encodable
  | false => exact guarded.append encodable fun needs => by cases forward needs

end

theorem Guarded.define (name : Nat) : Guarded lowered ((name, lowered.length) :: marks) := by
  have later : ∀ {other index},
      ((name, lowered.length) :: marks).lookup other = some index → index < lowered.length →
      marks.lookup other = some index := by
    intro other index found below
    rw [List.lookup_cons] at found
    split at found
    · cases found
      exact absurd below (Nat.lt_irrefl _)
    · exact found
  refine ⟨guarded.encodable, fun {_ _} found needs => ?_⟩
  have inside := lt_length found
  obtain ⟨before, same, polled, unmarked⟩ := guarded.polls found (needs.imp id fun jumps => by
    obtain ⟨target, member, index, marked, below⟩ := jumps
    exact ⟨target, member, index, later marked (by omega), below⟩)
  exact ⟨before, same, polled, fun other marked => unmarked other (later marked inside)⟩

end Guarded

/-- A unit under construction whose code is guarded. -/
def Guards (emitter : Emitter) : Prop :=
  ∃ lowered marks, Represents lowered marks emitter ∧ Guarded lowered marks

/-- Every stage of lowering keeps code guarded. -/
theorem kept_guards : Kept (fun _ => True) fun left right => left = right ∧ Guards left where
  frame := by
    rintro left right ⟨rfl, _⟩
    exact ⟨rfl, rfl, rfl, rfl⟩
  pool := by
    rintro left right ⟨rfl, lowered, marks, represents, guarded⟩ _
    exact ⟨rfl, lowered, marks, represents.congr rfl rfl rfl rfl rfl, guarded⟩
  scratch := by
    rintro left right ⟨rfl, lowered, marks, represents, guarded⟩ _ _ _
    exact ⟨rfl, lowered, marks, represents.congr rfl rfl rfl rfl rfl, guarded⟩
  emit := by
    rintro left right action ⟨rfl, lowered, marks, represents, guarded⟩ other
    exact ⟨rfl, _, marks, represents.emit action, guarded.append (Nat.zero_le _)
      fun needs => absurd needs (not_needs_plain other _ _)⟩
  polled := by
    rintro left right action ⟨rfl, lowered, marks, represents, guarded⟩
    have polled := (represents.emit .checkInterrupt).emit action
    rw [List.append_assoc] at polled
    exact ⟨rfl, _, marks, polled,
      guarded.poll (fun marked => (represents.marked marked).2) (Nat.zero_le _)⟩
  jump := by
    rintro left right condition name ⟨rfl, lowered, marks, represents, guarded⟩ _
    refine ⟨rfl, _, marks, represents_jump represents condition name,
      guarded.pollIf (fun marked => (represents.marked marked).2) (Nat.le_add_left 1 _) ?_⟩
    rintro (⟨action, absurd, _⟩ | ⟨other, member, index, marked, _⟩)
    · cases absurd
    · rw [← List.mem_singleton.mp member, marked]
      rfl
  switch := by
    rintro left right names ⟨rfl, lowered, marks, represents, guarded⟩ _ few
    have encodable : (Machine.Instruction.switch names).Encodable := few
    refine ⟨rfl, _, marks, represents_switched represents names,
      guarded.pollIf (fun marked => (represents.marked marked).2) encodable ?_⟩
    rintro (⟨action, absurd, _⟩ | ⟨name, member, index, marked, _⟩)
    · cases absurd
    · exact List.any_eq_true.mpr ⟨name, member, by rw [marked]; rfl⟩
  label := by
    rintro left right name ⟨rfl, lowered, marks, represents, guarded⟩
    exact ⟨rfl, lowered, _, (represents.labelFor name).define (Represents.names_labelFor left name),
      guarded.define name⟩

/-! ## Loaded code -/

/-- An index that control comes to from the poll in front of it only. -/
def Behind (code : Array (Machine.Instruction Nat)) (index : Nat) : Prop :=
  ∃ before, index = before + 1 ∧ code[before]? = some (.plain .checkInterrupt) ∧
    ∀ other ∈ code, index ∉ other.targets

/-- Calls, and jumps that can go backwards, stand behind polls. -/
structure Polls (code : Array (Machine.Instruction Nat)) : Prop where
  calls : ∀ {index : Nat} {action : Action}, code[index]? = some (.plain action) → IsCall action →
    Behind code index
  jumps : ∀ {index target : Nat} {instr : Machine.Instruction Nat},
    code[index]? = some instr → target ∈ instr.targets → target ≤ index →
    Behind code index

theorem polls_of_guarded (guarded : Guarded lowered marks)
    (defined : ∀ instr ∈ lowered, ∀ name ∈ instr.targets, ∃ index, marks.lookup name = some index)
    (same : code.toList = lowered.map (retarget (Represents.target marks))) : Polls code := by
  have here : ∀ index : Nat, code[index]? =
      lowered[index]?.map (retarget (Represents.target marks)) := by
    intro index
    rw [← Array.getElem?_toList, same, List.getElem?_map]
  have behind : ∀ {index : Nat} {instr : Machine.Instruction Nat},
      lowered[index]? = some instr → Needs marks index instr → Behind code index := by
    intro index instr found needs
    obtain ⟨before, rfl, polled, unmarked⟩ := guarded.polls found needs
    refine ⟨before, rfl, by rw [here, polled]; rfl, fun other member jumps => ?_⟩
    rw [← Array.mem_toList_iff, same] at member
    obtain ⟨original, listed, rfl⟩ := List.mem_map.mp member
    rw [targets_retarget] at jumps
    obtain ⟨name, named, lands⟩ := List.mem_map.mp jumps
    obtain ⟨index, marked⟩ := defined original listed name named
    rw [Represents.target, marked] at lands
    exact unmarked name (marked.trans (congrArg some lands))
  constructor
  · intro index _ found call
    rw [here] at found
    obtain ⟨original, listed, lowers⟩ := Option.map_eq_some_iff.mp found
    cases original with
    | plain other =>
      cases lowers
      exact behind listed (.inl ⟨_, rfl, call⟩)
    | jump | switch => cases lowers
  · intro index target instr found member below
    rw [here] at found
    obtain ⟨original, listed, rfl⟩ := Option.map_eq_some_iff.mp found
    rw [targets_retarget] at member
    obtain ⟨name, named, lands⟩ := List.mem_map.mp member
    obtain ⟨place, marked⟩ := defined original (List.mem_of_getElem? listed) name named
    rw [Represents.target, marked, Option.getD_some] at lands
    exact behind listed (.inr ⟨name, named, place, marked, lands ▸ below⟩)

/-- A way of control through code, with the indices that it leaves behind. -/
inductive Path (code : Array (Machine.Instruction Nat)) : Nat → Nat → List Nat → Prop
  | last {index next : Nat} {instr : Machine.Instruction Nat} :
      code[index]? = some instr → LoadedUnit.Follows index instr next →
      Path code index next [index]
  | step {index next final : Nat} {instr : Machine.Instruction Nat} {visited : List Nat} :
      code[index]? = some instr → LoadedUnit.Follows index instr next →
      Path code next final visited → Path code index final (index :: visited)

section Path

variable {code : Array (Machine.Instruction Nat)} {index next final : Nat}
  {instr : Machine.Instruction Nat} {visited : List Nat}

theorem Behind.poll_of_follows (behind : Behind code next) (found : code[index]? = some instr)
    (follows : LoadedUnit.Follows index instr next) :
    code[index]? = some (.plain .checkInterrupt) := by
  obtain ⟨_, rfl, polled, never⟩ := behind
  rcases follows with ⟨_, same⟩ | jumps
  · cases same
    exact polled
  · exact absurd jumps (never instr (Array.mem_of_getElem? found))

theorem Polls.lt_of_follows (polls : Polls code) (found : code[index]? = some instr)
    (follows : LoadedUnit.Follows index instr next) (free : ¬ Behind code index) :
    index < next := by
  rcases follows with ⟨_, rfl⟩ | jumps
  · exact Nat.lt_succ_self index
  · exact Nat.lt_of_not_le fun backwards => free (polls.jumps found jumps backwards)

/-- Without a poll control only goes forward. -/
theorem Path.forward (polls : Polls code) (path : Path code index final visited)
    (unpolled : ∀ passed ∈ visited, code[passed]? ≠ some (.plain .checkInterrupt)) :
    ¬ Behind code final ∧ (¬ Behind code index → index < final) := by
  induction path with
  | last found follows =>
    exact ⟨fun behind => unpolled _ List.mem_cons_self (behind.poll_of_follows found follows),
      polls.lt_of_follows found follows⟩
  | step found follows _ ih =>
    obtain ⟨free, later⟩ := ih fun passed member => unpolled passed (List.mem_cons_of_mem _ member)
    refine ⟨free, fun own => Nat.lt_trans (polls.lt_of_follows found follows own) (later ?_)⟩
    exact fun behind => unpolled _ List.mem_cons_self (behind.poll_of_follows found follows)

end Path

/-- No compiled loop escapes the poll of the interrupt flag: every way of control from an
instruction back to it passes a poll, and every call stands directly behind one that no jump can
skip. -/
theorem compiled_loops_poll {source : Module} {options : CompileOptions} {compiled : CompiledModule}
    (made : (source.compile options).outcome = .ok compiled) {function : Nat} {unit : CodeUnit}
    (resolved : compiled.resolutions[function]? = some .compiled)
    (found : compiled.units[function]? = some unit) :
    ∃ loaded, unit.load = .ok loaded ∧
      (∀ index visited, Path loaded.code index index visited →
        ∃ passed ∈ visited, loaded.code[passed]? = some (.plain .checkInterrupt)) ∧
      ∀ index action, loaded.code[index]? = some (.plain action) → IsCall action →
        Behind loaded.code index := by
  obtain ⟨_, _, _, count, _⟩ := compile_eq_ok made
  have inside := lt_size resolved
  obtain ⟨own, _, unitFound, resolutionFound, resolves⟩ :=
    Module.resolves_of_compile made (count ▸ inside)
  rw [resolved] at resolutionFound
  rw [found] at unitFound
  cases resolutionFound
  cases unitFound
  obtain _ | _ | ⟨_, _, fits, _, code, _, every⟩ := resolves
  have lowered := every _ fits
  rw [function_eq] at lowered
  obtain ⟨⟨context, emitter⟩, emission, finished⟩ := bind_eq_ok.mp lowered
  obtain ⟨_, lowered, marks, represents, guarded⟩ := kept_guards.of_emitted emission
    ⟨rfl, [], [], represents_new _ _, ⟨by simp, by simp⟩⟩
  obtain ⟨loaded, done, _, _, same, defined⟩ := represents.load_of_finish guarded.encodable finished
  have polls := polls_of_guarded guarded defined same
  refine ⟨loaded, done, fun index visited path => ?_, fun _ _ => polls.calls⟩
  by_contra absent
  obtain ⟨free, forward⟩ := path.forward polls fun passed member polled =>
    absent ⟨passed, member, polled⟩
  exact Nat.lt_irrefl index (forward free)

/-- A function that calls itself in a loop. -/
def callingLoopBytes : List UInt8 :=
  [0x00, 0x61, 0x73, 0x6d, 0x01, 0x00, 0x00, 0x00, 0x01, 0x05, 0x01, 0x60, 0x01, 0x7f, 0x00, 0x03,
    0x02, 0x01, 0x00, 0x0a, 0x0f, 0x01, 0x0d, 0x00, 0x03, 0x40, 0x20, 0x00, 0x10, 0x00, 0x20, 0x00,
    0x0d, 0x00, 0x0b, 0x0b]

theorem compiled_loops_poll_callingLoop :
    ∃ source compiled unit loaded, Module.parse callingLoopBytes = .ok source ∧
      (source.compile {}).outcome = .ok compiled ∧ compiled.resolutions[0]? = some .compiled ∧
      compiled.units[0]? = some unit ∧ unit.load = .ok loaded ∧
      loaded.code[5]? = some (.jump .nonzero 0) ∧ Behind loaded.code 2 ∧
      ∀ index visited, Path loaded.code index index visited →
        ∃ passed ∈ visited, loaded.code[passed]? = some (.plain .checkInterrupt) := by
  have facts : ((Module.parse callingLoopBytes).toOption.bind fun source =>
      (source.compile {}).outcome.toOption.bind fun compiled =>
        compiled.units[0]?.bind fun unit => unit.load.toOption.map fun loaded =>
          (compiled.resolutions[0]?, loaded.code[2]?, loaded.code[5]?)) =
      some (some .compiled, some (.plain (.call .unit 0 0)), some (.jump .nonzero 0)) := by
    decide +kernel
  obtain ⟨source, parsed, facts⟩ := Option.bind_eq_some_iff.mp facts
  obtain ⟨compiled, made, facts⟩ := Option.bind_eq_some_iff.mp facts
  obtain ⟨unit, found, facts⟩ := Option.bind_eq_some_iff.mp facts
  obtain ⟨_, done, facts⟩ := Option.map_eq_some_iff.mp facts
  simp only [Prod.mk.injEq] at facts
  replace made := ok_of_toOption made
  obtain ⟨loaded, loads, cycles, calls⟩ := compiled_loops_poll made facts.1 found
  obtain rfl := Except.ok.inj (loads.symm.trans (ok_of_toOption done))
  exact ⟨source, compiled, unit, loaded, ok_of_toOption parsed, made, facts.1, found,
    loads, facts.2.2, calls 2 _ facts.2.1 trivial, cycles⟩

end TwinEngine.Lowering
