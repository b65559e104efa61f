import TwinEngine.Proofs.Typing.Shape

/-!
Contract: bodies that pass the check are typed.

Owns: the open blocks of the check together with what annotation finds about them, what a step does
to them, and the shapes that they give.

The check and the annotation of a body open and close the same blocks. An open block stays what it
is, and so do all blocks around it, until it is closed; so the places where it is divided and closed
can be found by following the check from any point inside it.
-/

namespace TwinEngine.Typing

open Option
open List (mem_cons_of_mem mem_cons_self cons_append length_cons getElem?_map length_map mem_cons
  append_assoc cons length)
open Validation (Agrees State steps bodyKinds bodyTyped nests step step_flat)

open Validation (Frame FrameForm kindOf signatureKinds openedForm conditionKinds FlatEffect)
open BlockStructure
open Binary (Signature)

/-! ## Entries -/

/-- An open block of the check, with its opener and the start of its second arm. -/
structure Entry where
  frame : Frame
  opener : Option Nat
  second : Option Nat

/-- The open blocks of the check with what annotation knows about them. -/
def entriesOf : List Frame → List OpenExtent → List Entry
  | [], _ => []
  | frame :: frames, pending =>
    ⟨frame, pending.head?.map OpenExtent.opener, pending.head?.bind OpenExtent.otherwise⟩ ::
      entriesOf frames pending.tail

/-- The kinds of the operands of open blocks, the last one first. -/
def kindsOf (entries : List Entry) : List ValueKind := entries.flatMap (·.frame.kinds)

/-- Whether annotation finds a second arm for the block of an opener. -/
def divided (ops : List Operator) (opener : Option Nat) : Bool :=
  opener.any fun opener => ((contextOf ops).extent opener).otherwise.isSome

def blockOf (ops : List Operator) (entry : Entry) (outer : List Entry) : Block :=
  { opener := entry.opener
    isLoop := entry.frame.form == .loop
    type := ⟨entry.frame.params.map kindOf, entry.frame.results.map kindOf⟩
    beneath := kindsOf outer
    pending := entry.frame.form == .conditional && divided ops entry.opener }

def blocksOf (ops : List Operator) : List Entry → List Block
  | [] => []
  | entry :: outer => blockOf ops entry outer :: blocksOf ops outer

def shapeOf (ops : List Operator) (op : Option Operator) :
    List Entry → Option Shape
  | [] => none
  | entry :: outer =>
    if ∀ other ∈ outer, other.frame.Live then
      if entry.frame.Live then
        some ⟨kindsOf (entry :: outer), blocksOf ops (entry :: outer)⟩
      else if op = some .otherwise ∨ op = some .finish then
        some ⟨(blockOf ops entry outer).exit, blocksOf ops (entry :: outer)⟩
      else none
    else none

def EntryStep (source : Module) (locals : List ValueKind) (index : Nat)
    (before after : List Entry) : Operator → Prop
  | .enter form note =>
    ∃ head later outer signature assigned,
      source.blockType note = .ok (signatureKinds signature) ∧ before = head :: outer ∧
      after = ⟨Frame.enter (openedForm form) signature assigned, some index, none⟩ ::
        { head with frame := later } :: outer ∧
      head.frame.Continues later ∧
      (head.frame.Live → later.Live ∧ head.frame.kinds =
        (signature.params.map kindOf ++ conditionKinds form).reverse ++ later.kinds)
  | .otherwise =>
    ∃ head outer assigned, before = head :: outer ∧ head.frame.form = .conditional ∧
      (head.frame.Live → head.frame.kinds = (head.frame.results.map kindOf).reverse) ∧
      after = ⟨Frame.enter .otherwise ⟨head.frame.params, head.frame.results⟩ assigned,
        head.opener, some index⟩ :: outer
  | .finish =>
    ∃ head outer, before = head :: outer ∧
      (head.frame.Live → head.frame.kinds = (head.frame.results.map kindOf).reverse) ∧
      (head.frame.form = .conditional →
        head.frame.params.map kindOf = head.frame.results.map kindOf) ∧
      (outer = [] ∧ after = [] ∨
        ∃ next rest, outer = next :: rest ∧
          after = { next with frame := next.frame.push head.frame.results } :: rest)
  | op =>
    ∃ head later outer, before = head :: outer ∧ after = { head with frame := later } :: outer ∧
      head.frame.Continues later ∧
      (head.frame.Live →
        FlatEffect source locals (before.map Entry.frame) head.frame later op)

theorem map_frame_entriesOf (frames : List Frame) (pending : List OpenExtent) :
    (entriesOf frames pending).map Entry.frame = frames := by
  induction frames generalizing pending with
  | nil => rfl
  | cons frame frames ih => rw [entriesOf, List.map_cons, ih]

theorem EntryStep.flat_iff (flat : nests op = false) :
    EntryStep source locals index before after op ↔
      ∃ head later outer, before = head :: outer ∧ after = { head with frame := later } :: outer ∧
        head.frame.Continues later ∧ (head.frame.Live →
          FlatEffect source locals (before.map Entry.frame) head.frame later op) := by
  cases op <;> first | exact Iff.rfl | cases flat

/-- A step of the check, with what annotation knows about the open blocks. -/
theorem entryStep_of_step (agrees : Agrees context source locals)
    (supported : written.supported = .ok op)
    (stepped : step context state written = some state') (pending : List OpenExtent) (index : Nat)
    (opened : ∀ head outer, state.frames = head :: outer → head.form = .conditional →
      pending ≠ []) : EntryStep source locals index (entriesOf state.frames pending)
      (entriesOf state'.frames (pended pending index op)) op := by
  cases nests : nests op with
  | false =>
    rw [EntryStep.flat_iff nests]
    obtain ⟨head, later, outer, before, after, continues, effect⟩ :=
      step_flat agrees supported nests stepped
    have same : pended pending index op = pending := by
      cases op <;> first | rfl | cases nests
    rw [same, map_frame_entriesOf, before, after]
    rw [before] at effect
    exact ⟨_, later, _, rfl, rfl, continues, effect⟩
  | true =>
    cases op with
    | enter form =>
      obtain ⟨head, later, outer, signature, type, before, after, continues, effect⟩ :=
        Validation.step_enter agrees supported stepped
      rw [before, after]
      exact ⟨_, later, _, signature, _, type, rfl, rfl, continues, effect⟩
    | otherwise =>
      obtain ⟨head, outer, before, form, closes, after⟩ :=
        Validation.step_otherwise supported stepped
      rw [before, after]
      refine ⟨_, _, head.assigned, rfl, form, fun live => Frame.kinds_of_closes live closes, ?_⟩
      cases pending with
      | nil => exact absurd rfl (opened head outer before form)
      | cons _ rest => rfl
    | finish =>
      obtain ⟨head, outer, before, closes, sameArms, ends⟩ :=
        Validation.step_finish supported stepped
      rw [before]
      refine ⟨_, _, rfl, fun live => Frame.kinds_of_closes live closes, sameArms, ?_⟩
      rcases ends with ⟨rfl, after⟩ | ⟨_, rest, rfl, after⟩
      · rw [after]
        exact .inl ⟨rfl, rfl⟩
      · rw [after]
        exact .inr ⟨_, _, rfl, rfl⟩
    | _ => cases nests

theorem eq_conditional_of_openedForm (same : openedForm form = .conditional) :
    form = .conditional := by
  cases form <;> first | rfl | cases same

variable {form : BlockForm} {before after : List Entry} {opener : Nat} {block : Block}

theorem eq_loop_of_openedForm (same : openedForm form = .loop) : form = .loop := by
  cases form <;> first | rfl | cases same

/-! ## What stays true of the open blocks -/

section

variable {source : Module} {locals : List ValueKind} {results : List ValueKind}
  {ops : List Operator}
variable {index : Nat} {op : Operator} {head entry : Entry} {inner outer entries : List Entry}

/-- Open blocks lie within each other, each has been opened by an operator of its form and type, and
the operands of those that can be reached are known. -/
inductive Standing (source : Module) (results : List ValueKind) (ops : List Operator) :
    Nat → List Entry → Prop
  | body {index : Nat} {entry : Entry} : entry.opener = none → entry.frame.form = .body →
      entry.frame.params = [] → entry.frame.results.map kindOf = results →
      (entry.frame.unreachable = false → entry.frame.Live) →
      Standing source results ops index [entry]
  | block {index opener : Nat} {form : BlockForm} {note : BlockType} {entry : Entry}
      {outer : List Entry} : Standing source results ops opener outer → opener < index →
      entry.opener = some opener → ops[opener]? = some (.enter form note) →
      source.blockType note =
        .ok ⟨entry.frame.params.map kindOf, entry.frame.results.map kindOf⟩ →
      (entry.frame.form = openedForm form ∧ entry.second = none ∨
        form = .conditional ∧ entry.frame.form = .otherwise) →
      (entry.frame.unreachable = false → entry.frame.Live) →
      Standing source results ops index (entry :: outer)

namespace Standing

theorem mono (standing : Standing source results ops index entries) (below : index ≤ later) :
    Standing source results ops later entries := by
  cases standing with
  | body opener form params same known => exact .body opener form params same known
  | block outer _ opener op type arm known =>
    exact .block outer (by omega) opener op type arm known

section

variable (standing : Standing source results ops index (head :: outer))

include standing

theorem known : head.frame.unreachable = false → head.frame.Live := by
  cases standing with
  | body _ _ _ _ known => exact known
  | block _ _ _ _ _ _ known => exact known

theorem opener_ne_none (form : head.frame.form = .conditional) : head.opener ≠ none := by
  cases standing with
  | body _ isBody => cases isBody.symm.trans form
  | block _ _ opener => simp [opener]

theorem second_eq_none (form : head.frame.form = .conditional) : head.second = none := by
  cases standing with
  | body _ isBody => cases isBody.symm.trans form
  | block _ _ _ _ _ arm =>
    rcases arm with ⟨_, absent⟩ | ⟨_, otherwise⟩
    · exact absent
    · cases otherwise.symm.trans form

/-- A block whose state changes stands as before. -/
theorem continued
    (continues : head.frame.Continues frame) (known : frame.unreachable = false → frame.Live)
    (below : index ≤ later) : Standing source results ops later ({ head with frame } :: outer) := by
  cases standing with
  | body opener form params same =>
    refine .body opener ?_ ?_ ?_ known
    · rw [continues.form, form]
    · rw [continues.params, params]
    · rw [continues.results, same]
  | block outer _ opener op type arm =>
    refine .block outer (by omega) opener op ?_ ?_ known
    · rw [continues.params, continues.results, type]
    · rw [continues.form]
      exact arm

/-- The operands stay known while a block goes on. -/
theorem known_of_effect (continues : head.frame.Continues frame)
    (effect : head.frame.Live → frame.Live ∨ frame.unreachable = true)
    (reachable : frame.unreachable = false) : frame.Live := by
  have before : head.frame.unreachable = false := by
    cases dead : head.frame.unreachable with
    | false => rfl
    | true => rw [continues.unreachable dead] at reachable; cases reachable
  rcases effect (standing.known before) with live | dead
  · exact live
  · cases dead.symm.trans reachable

end

theorem step (standing : Standing source results ops index before) (here : ops[index]? = some op)
    (stepped : EntryStep source locals index before after op) :
    after = [] ∨ Standing source results ops (index + 1) after := by
  cases nests : nests op with
  | false =>
    obtain ⟨head, later, outer, rfl, rfl, continues, effect⟩ :=
      (EntryStep.flat_iff nests).mp stepped
    have known := standing.known_of_effect continues fun live => (effect live).live_or_dead
    exact .inr (standing.continued continues known (by omega))
  | true =>
    cases op with
    | enter form =>
      obtain ⟨head, later, outer, _, assigned, type, rfl, rfl, continues, effect⟩ := stepped
      have known := standing.known_of_effect continues fun live => .inl (effect live).1
      have around := standing.continued continues known (Nat.le_refl index)
      exact .inr (.block around (by omega) rfl here type (.inl ⟨rfl, rfl⟩)
        fun _ => Frame.enter_live _ _ _)
    | otherwise =>
      obtain ⟨head, outer, assigned, rfl, form, _, rfl⟩ := stepped
      right
      cases standing with
      | body _ isBody => cases isBody.symm.trans form
      | block outer earlier opener opening type arm =>
        refine .block outer (by omega) opener opening type (.inr ⟨?_, rfl⟩)
          fun _ => Frame.enter_live _ _ _
        rcases arm with ⟨same, _⟩ | ⟨conditional, _⟩
        · exact eq_conditional_of_openedForm (same.symm.trans form)
        · exact conditional
    | finish =>
      obtain ⟨head, outer, rfl, _, _, ends⟩ := stepped
      rcases ends with ⟨_, rfl⟩ | ⟨_, _, rfl, rfl⟩
      · exact .inl rfl
      · right
        cases standing with
        | block around earlier =>
          refine around.continued ⟨rfl, rfl, rfl, id⟩ (fun reachable => ?_) (by omega)
          exact Frame.push_live (around.known reachable)
    | _ => cases nests

end Standing

/-- A check of a whole body, with what annotation finds: the open blocks in front of each
operator. -/
structure Trace (source : Module) (locals results : List ValueKind) (ops : List Operator)
    (entries : Nat → List Entry) : Prop where
  start : ∃ entry : Entry, entries 0 = [entry] ∧ entry.frame.Live ∧ entry.frame.kinds = []
  finish : ∀ {index : Nat}, ops.length ≤ index → entries index = []
  step : ∀ {index : Nat} {op : Operator}, ops[index]? = some op →
    EntryStep source locals index (entries index) (entries (index + 1)) op
  standing : ∀ {index : Nat}, index < ops.length →
    Standing source results ops index (entries index)
  extents : ∀ index, ∃ frames, entries index = entriesOf frames (pendingAt ops index)

section

variable (stepped : EntryStep source locals index before after op)

include stepped

/-- The rest of the open blocks stays as it is until the block inside them is closed. -/
theorem EntryStep.beneath (split : before = inner ++ entry :: outer)
    (goesOn : inner = [] → op ≠ .otherwise ∧ op ≠ .finish) :
    ∃ inner' frame, after = inner' ++ { entry with frame } :: outer ∧
      entry.frame.Continues frame := by
  subst split
  cases nests : nests op with
  | false =>
    obtain ⟨head, later, rest, before, rfl, continues, _⟩ := (EntryStep.flat_iff nests).mp stepped
    cases inner with
    | nil =>
      cases before
      exact ⟨[], later, rfl, continues⟩
    | cons first inner =>
      cases before
      exact ⟨_ :: inner, entry.frame, rfl, .refl _⟩
  | true =>
    cases op with
    | enter =>
      obtain ⟨head, later, rest, _, assigned, _, before, rfl, continues, _⟩ := stepped
      cases inner with
      | nil =>
        cases before
        exact ⟨[_], later, rfl, continues⟩
      | cons first inner =>
        cases before
        exact ⟨_ :: _ :: inner, entry.frame, rfl, .refl _⟩
    | otherwise =>
      obtain ⟨head, rest, assigned, before, _, _, rfl⟩ := stepped
      cases inner with
      | nil => exact absurd rfl (goesOn rfl).1
      | cons first inner =>
        cases before
        exact ⟨_ :: inner, entry.frame, rfl, .refl _⟩
    | finish =>
      obtain ⟨head, rest, before, _, _, ends⟩ := stepped
      cases inner with
      | nil => exact absurd rfl (goesOn rfl).2
      | cons first inner =>
        cases before
        rcases ends with ⟨empty, _⟩ | ⟨_, _, rest, rfl⟩
        · simp at empty
        · cases inner with
          | nil =>
            cases rest
            exact ⟨[], _, rfl, ⟨rfl, rfl, rfl, id⟩⟩
          | cons _ inner =>
            cases rest
            exact ⟨_ :: inner, entry.frame, rfl, .refl _⟩
    | _ => cases nests

theorem EntryStep.origin (split : after = inner ++ entry :: outer) :
    (∃ form note signature assigned, op = .enter form note ∧ inner = [] ∧
      entry = ⟨Frame.enter (openedForm form) signature assigned, some index, none⟩) ∨
      ∃ inner' earlier, before = inner' ++ earlier :: outer ∧ entry.opener = earlier.opener ∧
        entry.frame.params = earlier.frame.params ∧
        entry.frame.results = earlier.frame.results := by
  subst split
  cases nests : nests op with
  | false =>
    right
    obtain ⟨head, later, rest, rfl, after, continues, _⟩ := (EntryStep.flat_iff nests).mp stepped
    cases inner with
    | nil =>
      cases after
      exact ⟨[], head, rfl, rfl, continues.params, continues.results⟩
    | cons first inner =>
      cases after
      exact ⟨head :: inner, entry, rfl, rfl, rfl, rfl⟩
  | true =>
    cases op with
    | enter form note =>
      obtain ⟨head, later, rest, signature, assigned, _, rfl, after, continues, _⟩ := stepped
      cases inner with
      | nil =>
        cases after
        exact .inl ⟨form, note, signature, assigned, rfl, rfl, rfl⟩
      | cons first inner =>
        right
        obtain ⟨_, after⟩ := cons.inj after
        cases inner with
        | nil =>
          cases after
          exact ⟨[], head, rfl, rfl, continues.params, continues.results⟩
        | cons _ inner =>
          cases after
          exact ⟨head :: inner, entry, rfl, rfl, rfl, rfl⟩
    | otherwise =>
      right
      obtain ⟨head, rest, assigned, rfl, _, _, after⟩ := stepped
      cases inner with
      | nil =>
        cases after
        exact ⟨[], head, rfl, rfl, rfl, rfl⟩
      | cons first inner =>
        cases after
        exact ⟨head :: inner, entry, rfl, rfl, rfl, rfl⟩
    | finish =>
      right
      obtain ⟨head, rest, rfl, _, _, ends⟩ := stepped
      rcases ends with ⟨_, empty⟩ | ⟨next, _, rfl, after⟩
      · simp at empty
      · cases inner with
        | nil =>
          cases after
          exact ⟨[head], next, rfl, rfl, rfl, rfl⟩
        | cons first inner =>
          cases after
          exact ⟨head :: next :: inner, entry, rfl, rfl, rfl, rfl⟩
    | _ => cases nests

end

variable {last : Entry} {depth : Nat} {shape : Shape}

namespace Trace

variable {entries : Nat → List Entry} (trace : Trace source locals results ops entries)

include trace

/-- From any point inside a block, the check comes to the end of the block or of its first arm;
until then the block goes on and those around it stay as they are. -/
theorem exists_end {index : Nat} {inner outer : List Entry} {entry : Entry}
    (below : index < ops.length) (split : entries index = inner ++ entry :: outer) :
    ∃ next frame op, index ≤ next ∧ ops[next]? = some op ∧ (op = .otherwise ∨ op = .finish) ∧
      entries next = { entry with frame } :: outer ∧ entry.frame.Continues frame ∧
      ∀ between, index ≤ between → between < next → ∃ inner' frame op, ops[between]? = some op ∧
          entries between = inner' ++ { entry with frame } :: outer ∧ entry.frame.Continues frame ∧
          (inner' = [] → op ≠ .otherwise ∧ op ≠ .finish) := by
  have here : ops[index]? = some ops[index] := List.getElem?_eq_getElem below
  generalize ops[index] = op at here
  by_cases ends : inner = [] ∧ (op = .otherwise ∨ op = .finish)
  · obtain ⟨rfl, ends⟩ := ends
    exact ⟨index, entry.frame, op, Nat.le_refl index, here, ends, split, .refl _,
      fun between since before => absurd before (by omega)⟩
  · have goesOn : inner = [] → op ≠ .otherwise ∧ op ≠ .finish := by
      intro empty
      exact ⟨fun same => ends ⟨empty, .inl same⟩, fun same => ends ⟨empty, .inr same⟩⟩
    obtain ⟨inner', frame, after, continues⟩ := (trace.step here).beneath split goesOn
    have inside : index + 1 < ops.length := by
      rcases Nat.lt_or_ge (index + 1) ops.length with less | _
      · exact less
      · have same : index + 1 = ops.length := by omega
        rw [same, trace.finish (Nat.le_refl _)] at after
        simp at after
    obtain ⟨next, frame', operator', _, nextHere, nextEnds, nextSplit, goes, between⟩ :=
      exists_end inside after
    refine ⟨next, frame', operator', by omega, nextHere, nextEnds, nextSplit,
      continues.trans goes, fun place since before => ?_⟩
    rcases Nat.lt_or_eq_of_le since with less | same
    · obtain ⟨inner'', frame'', operator'', placeHere, placeSplit, placeGoes, quiet⟩ :=
        between place less before
      exact ⟨inner'', frame'', operator'', placeHere, placeSplit, continues.trans placeGoes, quiet⟩
    · subst same
      exact ⟨inner, entry.frame, op, here, split, .refl _, goesOn⟩
termination_by ops.length - index

theorem lt_of_entries (inside : index ≤ ops.length) (split : entries index = entry :: outer) :
    index < ops.length := by
  rcases Nat.lt_or_eq_of_le inside with less | same
  · exact less
  · rw [same, trace.finish (Nat.le_refl _)] at split
    cases split

section

variable (below : index < ops.length) (split : entries index = inner ++ entry :: outer)

include below split

/-- The block that an operator opened, right after it. -/
theorem opening (opened : entry.opener = some opener) :
    opener < index ∧ ∃ form note signature assigned, ops[opener]? = some (.enter form note) ∧
      entries (opener + 1) =
        ⟨Frame.enter (openedForm form) signature assigned, some opener, none⟩ :: outer ∧
      entry.frame.params = signature.params ∧ entry.frame.results = signature.results := by
  induction index generalizing inner entry with
  | zero =>
    obtain ⟨_, only, _⟩ := trace.start
    have standing := trace.standing below
    rw [only] at split standing
    cases inner with
    | nil =>
      cases split
      cases standing with
      | body none => cases none.symm.trans opened
      | block _ earlier => omega
    | cons _ inner =>
      have empty := (cons.inj split).2
      simp at empty
  | succ index ih =>
    have here : ops[index]? = some ops[index] := List.getElem?_eq_getElem (by omega)
    generalize ops[index] = op at here
    rcases (trace.step here).origin split with
      ⟨form, note, signature, assigned, rfl, rfl, rfl⟩ |
      ⟨inner', earlier, before, sameOpener, params, sameResults⟩
    · cases opened
      exact ⟨by omega, form, note, signature, assigned, here, split, rfl, rfl⟩
    · obtain ⟨_, form, note, signature, assigned, op, born, bornParams, bornResults⟩ :=
        ih (by omega) before (sameOpener.symm.trans opened)
      exact ⟨by omega, form, note, signature, assigned, op, born, params.trans bornParams,
        sameResults.trans bornResults⟩

/-- The place where an open block is closed. A conditional may have started its second arm by
then. -/
theorem exists_close : ∃ close last, index ≤ close ∧ ops[close]? = some .finish ∧
      entries close = last :: outer ∧ last.opener = entry.opener ∧
      last.frame.params = entry.frame.params ∧ last.frame.results = entry.frame.results ∧
      (last.second = entry.second ∧ last.frame.form = entry.frame.form ∨
        entry.frame.form = .conditional ∧ last.frame.form = .otherwise ∧
          ∃ second assigned, last.second = some second ∧ index ≤ second ∧ second < close ∧
            ops[second]? = some .otherwise ∧ entries (second + 1) =
              ⟨Frame.enter .otherwise ⟨entry.frame.params, entry.frame.results⟩ assigned,
                entry.opener, some second⟩ :: outer) := by
  obtain ⟨next, frame, op, since, here, ends, nextSplit, continues, _⟩ :=
    trace.exists_end below split
  rcases ends with rfl | rfl
  · obtain ⟨_, _, assigned, nextBefore, form, _, after⟩ := trace.step here
    cases nextSplit.symm.trans nextBefore
    simp only [continues.params, continues.results] at after
    have nextBelow := lt_length here
    have inside : next + 1 < ops.length := trace.lt_of_entries (by omega) after
    have secondArm : entries (next + 1) = [] ++ _ :: outer := after
    obtain ⟨close, last, op, _, closeHere, closeEnds, closeSplit, goes, _⟩ :=
      trace.exists_end inside secondArm
    rcases closeEnds with rfl | rfl
    · obtain ⟨_, _, _, closeBefore, closeForm, _⟩ := trace.step closeHere
      cases closeSplit.symm.trans closeBefore
      cases goes.form.symm.trans closeForm
    · refine ⟨close, _, by omega, closeHere, closeSplit, rfl, goes.params, goes.results, .inr ?_⟩
      exact ⟨continues.form.symm.trans form, goes.form, next, assigned, rfl, since, by omega, here,
        after⟩
  · exact ⟨next, _, since, here, nextSplit, rfl, continues.params, continues.results,
      .inl ⟨rfl, continues.form⟩⟩

end

/-- Annotation finds where a block is closed. -/
theorem extent_of_finish {close : Nat} (here : ops[close]? = some .finish)
    (split : entries close = last :: outer) (opened : last.opener = some opener) :
    (contextOf ops).extent opener = ⟨last.second, close⟩ := by
  obtain ⟨frames, same⟩ := trace.extents close
  rw [split] at same
  apply extent_of_closes
  refine ⟨here, ?_⟩
  cases frames with
  | nil => cases same
  | cons _ frames =>
    cases pending : pendingAt ops close with
    | nil =>
      rw [pending] at same
      cases same
      cases opened
    | cons extent extents =>
      rw [pending] at same
      cases same
      cases opened
      exact ⟨extents, rfl⟩

end Trace

/-! ## Shapes -/

theorem length_blocksOf (entries : List Entry) :
    (blocksOf ops entries).length = entries.length := by
  induction entries with
  | nil => rfl
  | cons _ _ ih => simp [blocksOf, ih]

theorem blocksOf_append (inner outer : List Entry) :
    (blocksOf ops (inner ++ outer)).drop inner.length = blocksOf ops outer := by
  induction inner with
  | nil => rfl
  | cons _ inner ih => simpa [blocksOf] using ih

theorem blockOf_continues (outer : List Entry) (continues : entry.frame.Continues frame) :
    blockOf ops { entry with frame } outer = blockOf ops entry outer := by
  simp only [blockOf, continues.form, continues.params, continues.results]

theorem blocksOf_continues {frame : Frame} (outer : List Entry)
    (continues : entry.frame.Continues frame) :
    blocksOf ops ({ entry with frame } :: outer) = blocksOf ops (entry :: outer) := by
  rw [blocksOf, blockOf_continues outer continues]
  rfl

theorem kindsOf_cons (entry : Entry) (outer : List Entry) :
    kindsOf (entry :: outer) = entry.frame.kinds ++ kindsOf outer := rfl

theorem shapeOf_live {op : Option Operator}
    (live : ∀ other ∈ entry :: outer, other.frame.Live) : shapeOf ops op (entry :: outer) =
      some ⟨kindsOf (entry :: outer), blocksOf ops (entry :: outer)⟩ := by
  rw [shapeOf, if_pos fun other member => live other (mem_cons_of_mem _ member),
    if_pos (live entry mem_cons_self)]

/-- A shape comes from blocks of which all but the innermost can be reached. -/
theorem shapeOf_eq_some {op : Option Operator} (found : shapeOf ops op entries = some shape) :
    ∃ entry outer, entries = entry :: outer ∧ (∀ other ∈ outer, other.frame.Live) ∧
      shape.blocks = blocksOf ops (entry :: outer) ∧
      (entry.frame.Live ∧ shape.operands = kindsOf (entry :: outer) ∨
        ¬ entry.frame.Live ∧ shape.operands = (blockOf ops entry outer).exit ∧
          (op = some .otherwise ∨ op = some .finish)) := by
  cases entries with
  | nil => cases found
  | cons entry outer =>
    rw [shapeOf] at found
    split at found
    · rename_i outerLive
      refine ⟨entry, outer, rfl, outerLive, ?_⟩
      split at found
      · rename_i live
        cases found
        exact ⟨rfl, .inl ⟨live, rfl⟩⟩
      · rename_i dead
        split at found
        · rename_i ends
          cases found
          exact ⟨rfl, .inr ⟨dead, rfl, ends⟩⟩
        · cases found
    · cases found

def shapesOf (ops : List Operator) (entries : Nat → List Entry) (index : Nat) :
    Option Shape :=
  shapeOf ops ops[index]? (entries index)

theorem opener_entriesOf (found : (entriesOf frames pending)[depth]? = some entry) :
    entry.opener = pending[depth]?.map OpenExtent.opener := by
  induction frames generalizing pending depth with
  | nil => cases found
  | cons _ frames ih =>
    cases depth with
    | zero =>
      cases found
      cases pending <;> rfl
    | succ depth =>
      rw [ih found]
      cases pending <;> simp

theorem Standing.suffix (standing : Standing source results ops index (inner ++ entry :: outer)) :
    Standing source results ops index (entry :: outer) := by
  induction inner generalizing index with
  | nil => exact standing
  | cons _ inner ih =>
    rw [cons_append] at standing
    generalize rest : inner ++ entry :: outer = around at standing
    cases standing with
    | body => simp at rest
    | block deeper =>
      subst rest
      exact (ih deeper).mono (by omega)

theorem Standing.outer_eq_nil (standing : Standing source results ops index (entry :: outer))
    (isBody : entry.opener = none) : outer = [] := by
  cases standing with
  | body => rfl
  | block _ _ opener => cases isBody.symm.trans opener

/-- What typing sees of a block at its end. -/
theorem blockOf_eq_settled (opener : last.opener = entry.opener)
    (params : last.frame.params = entry.frame.params)
    (sameResults : last.frame.results = entry.frame.results)
    (form : last.frame.form = entry.frame.form ∨ entry.frame.form = .conditional ∧ last.frame.form =
      .otherwise) (pending : (blockOf ops last outer).pending = false) :
    blockOf ops last outer = (blockOf ops entry outer).settled := by
  have loops : (last.frame.form == .loop) = (entry.frame.form == .loop) := by
    rcases form with same | ⟨first, second⟩
    · rw [same]
    · rw [first, second]
      rfl
  simp only [blockOf, Block.settled, opener, params, sameResults, loops, Block.mk.injEq, true_and]
  rw [← opener]
  exact pending

theorem blockOf_second {assigned : List Nat} {start : Nat}
    (form : entry.frame.form = .conditional) :
    blockOf ops ⟨Frame.enter .otherwise ⟨entry.frame.params, entry.frame.results⟩ assigned,
      entry.opener, some start⟩ outer = (blockOf ops entry outer).settled :=
  blockOf_eq_settled rfl rfl rfl (.inr ⟨form, rfl⟩) rfl

theorem Standing.length_eq
    (standing : Standing source results ops index (entriesOf frames pending)) :
    frames.length = pending.length + 1 := by
  induction frames generalizing pending index with
  | nil => cases standing
  | cons _ frames ih =>
    rw [entriesOf] at standing
    generalize rest : entriesOf frames pending.tail = outer at standing
    cases standing with
    | body none =>
      have alone : frames = [] := by
        cases frames with
        | nil => rfl
        | cons => cases rest
      have empty : pending = [] := by
        cases pending with
        | nil => rfl
        | cons => cases none
      rw [alone, empty]
      rfl
    | block around _ opener =>
      subst rest
      cases pending with
      | nil => cases opener
      | cons =>
        rw [length_cons, ih around]
        rfl

namespace Trace

variable {entries : Nat → List Entry} (trace : Trace source locals results ops entries)

include trace

/-- Annotation has the same openers as the check. -/
theorem opener_openAt (found : (entries index)[depth]? = some entry) :
    entry.opener = ((openAt ops index)[depth]?).map OpenBlock.opener := by
  obtain ⟨_, same⟩ := trace.extents index
  rw [same] at found
  rw [opener_entriesOf found, ← getElem?_map, ← getElem?_map, map_opener_pendingAt]

theorem scope_eq (split : entries index = entry :: outer) :
    (openAt ops index).head?.map OpenBlock.opener = entry.opener := by
  have found : (entries index)[0]? = some entry := by rw [split]; rfl
  rw [trace.opener_openAt found, List.head?_eq_getElem?]

theorem length_openAt (below : index < ops.length) :
    (openAt ops index).length + 1 = (entries index).length := by
  have standing := trace.standing below
  obtain ⟨_, same⟩ := trace.extents index
  have openers := congrArg length (map_opener_pendingAt ops index)
  rw [same] at standing ⊢
  rw [length_map, length_map] at openers
  rw [← length_map Entry.frame, map_frame_entriesOf, standing.length_eq, openers]

/-- The end of a block or of its first arm has a shape if the blocks around it can be reached. -/
theorem shape_at_end (here : ops[index]? = some op)
    (ends : op = .otherwise ∨ op = .finish) (split : entries index = entry :: outer)
    (live : ∀ other ∈ outer, other.frame.Live) : shapesOf ops entries index =
      some ⟨(blockOf ops entry outer).exit, blocksOf ops (entry :: outer)⟩ := by
  rw [shapesOf, split, shapeOf, if_pos live, here]
  have closed : entry.frame.Live →
      entry.frame.kinds = (entry.frame.results.map kindOf).reverse := by
    have stepped := trace.step here
    rw [split] at stepped
    rcases ends with rfl | rfl
    · obtain ⟨_, _, _, same, _, closed, _⟩ := stepped
      cases same
      exact closed
    · obtain ⟨_, _, same, closed, _⟩ := stepped
      cases same
      exact closed
  split
  · rename_i entryLive
    rw [kindsOf_cons, closed entryLive]
    rfl
  · rw [if_pos]
    simpa using ends

/-- A block that ends has no second arm ahead. -/
theorem pending_at_finish (here : ops[index]? = some .finish)
    (split : entries index = entry :: outer) : (blockOf ops entry outer).pending = false := by
  have below := lt_length here
  have standing := trace.standing below
  rw [split] at standing
  simp only [blockOf, Bool.and_eq_false_iff]
  by_cases form : entry.frame.form = .conditional
  · right
    cases opened : entry.opener with
    | none => rfl
    | some opener =>
      simp [divided, trace.extent_of_finish here split opened, standing.second_eq_none form]
  · left
    simpa using form

theorem last_of_finish (here : ops[index]? = some .finish) (split : entries index = [entry]) :
    index + 1 = ops.length := by
  have below := lt_length here
  obtain ⟨_, _, same, _, _, ends⟩ := trace.step here
  rw [split] at same
  cases same
  have after : entries (index + 1) = [] := by
    rcases ends with ⟨_, after⟩ | ⟨_, _, empty, _⟩
    · exact after
    · cases empty
  rcases Nat.lt_or_eq_of_le below with less | full
  · have standing := trace.standing less
    rw [after] at standing
    cases standing
  · exact full

variable {body : Body} (annotated : body.instructions = annotate ops)

include annotated

omit trace in
theorem instruction_at (here : ops[index]? = some op) : body.instructions[index]? =
      some ((contextOf ops).annotate (openAt ops index) index op) := by
  rw [annotated, annotate_get, here]
  rfl

theorem exists_ends (below : index < ops.length)
    (split : entries index = inner ++ entry :: outer) (live : ∀ other ∈ outer, other.frame.Live) :
    ∃ close, index ≤ close ∧ ops[close]? = some .finish ∧
      Ends body (shapesOf ops entries) close (blockOf ops entry outer)
        (blocksOf ops outer) ∧ (∀ opener, entry.opener = some opener →
        ((contextOf ops).extent opener).finish = close) ∧
      (entry.opener = none → close + 1 = ops.length) := by
  obtain ⟨close, last, since, here, closeSplit, opener, params, sameResults, arm⟩ :=
    trace.exists_close below split
  have form : last.frame.form = entry.frame.form ∨
      entry.frame.form = .conditional ∧ last.frame.form = .otherwise := by
    rcases arm with ⟨_, same⟩ | ⟨first, second, _⟩
    · exact .inl same
    · exact .inr ⟨first, second⟩
  have settled : blockOf ops last outer = (blockOf ops entry outer).settled :=
    blockOf_eq_settled opener params sameResults form (trace.pending_at_finish here closeSplit)
  refine ⟨close, since, here, ⟨?_, _, instruction_at annotated here, rfl, ?_⟩, ?_, ?_⟩
  · rw [trace.shape_at_end here (.inr rfl) closeSplit live, blocksOf, settled]
    rfl
  · exact (trace.scope_eq closeSplit).trans opener
  · intro _ opened
    rw [trace.extent_of_finish here closeSplit (opener.trans opened)]
  · intro isBody
    have standing := trace.standing (lt_length here)
    rw [closeSplit] at standing
    have alone := standing.outer_eq_nil (opener.trans isBody)
    subst alone
    exact trace.last_of_finish here closeSplit

omit annotated in
theorem opener_shape (below : index < ops.length)
    (split : entries index = inner ++ entry :: outer) (opened : entry.opener = some opener)
    (live : ∀ other ∈ outer, other.frame.Live) :
    opener < index ∧ ∃ form note, ops[opener]? = some (.enter form note) ∧
      shapesOf ops entries opener = some ⟨conditionKinds form ++ (blockOf ops entry outer).entry,
          blocksOf ops outer⟩ := by
  obtain ⟨earlier, form, note, signature, _, here, after, params, _⟩ :=
    trace.opening below split opened
  have opens := trace.step here
  rw [after] at opens
  obtain ⟨head, later, _, signature', _, _, before, same, continues, effect⟩ := opens
  obtain ⟨sameHead, rfl⟩ := cons.inj same
  have sameParams : signature.params = signature'.params := congrArg (·.frame.params) sameHead
  have beneath : later.Live := live _ mem_cons_self
  have reached : head.frame.Live := by
    have beforeStanding := trace.standing (lt_length here)
    rw [before] at beforeStanding
    apply beforeStanding.known
    cases dead : head.frame.unreachable with
    | false => rfl
    | true =>
      have := continues.unreachable dead
      cases beneath.reachable.symm.trans this
  have condition : (conditionKinds form).reverse = conditionKinds form := by cases form <;> rfl
  refine ⟨earlier, form, note, here, ?_⟩
  rw [shapesOf, before, shapeOf_live, blocksOf_continues _ continues, kindsOf_cons,
    (effect reached).2]
  · simp [blockOf, Block.entry, params, sameParams, condition, kindsOf_cons]
  · intro other member
    rcases mem_cons.mp member with same | deeper
    · subst same
      exact reached
    · exact live other (mem_cons_of_mem _ deeper)

omit annotated in
theorem loop_start (below : index < ops.length)
    (split : entries index = inner ++ entry :: outer) (loop : entry.frame.form = .loop)
    (opened : entry.opener = some opener) (live : ∀ other ∈ outer, other.frame.Live) :
    opener < index ∧ (∃ note, ops[opener]? = some (.enter .loop note)) ∧
      shapesOf ops entries opener = some ⟨(blockOf ops entry outer).entry, blocksOf ops outer⟩ ∧
      shapesOf ops entries (opener + 1) = some ⟨(blockOf ops entry outer).entry,
          blockOf ops entry outer :: blocksOf ops outer⟩ := by
  obtain ⟨earlier, form, note, _, _, here, after, params, sameResults⟩ :=
    trace.opening below split opened
  have standing := trace.standing below
  rw [split] at standing
  have isLoop : form = .loop := by
    cases standing.suffix with
    | body _ isBody => cases isBody.symm.trans loop
    | block _ _ sameOpener op _ arm =>
      cases opened.symm.trans sameOpener
      cases here.symm.trans op
      rcases arm with ⟨same, _⟩ | ⟨_, otherwise⟩
      · exact eq_loop_of_openedForm (same.symm.trans loop)
      · cases otherwise.symm.trans loop
  subst isLoop
  obtain ⟨_, form, _, sameHere, before⟩ := trace.opener_shape below split opened live
  cases here.symm.trans sameHere
  refine ⟨earlier, ⟨note, here⟩, before, ?_⟩
  rw [shapesOf, after, shapeOf_live, kindsOf_cons, Frame.enter_kinds, blocksOf]
  · simp [blockOf, Block.entry, params, sameResults, loop, opened, Frame.enter, Frame.push,
      openedForm]
  · exact List.forall_mem_cons.mpr ⟨Frame.enter_live _ _ _, live⟩

theorem lands (here : ops[index]? = some op) (unfinished : op ≠ .finish)
    (split : entries index = inner ++ entry :: outer) (live : ∀ other ∈ outer, other.frame.Live) :
    Lands body (shapesOf ops entries) index (blocksOf ops (entries index))
      inner.length ((contextOf ops).target (openAt ops index) inner.length)
      (blockOf ops entry outer) := by
  have below := lt_length here
  refine ⟨blocksOf ops outer, by rw [split, blocksOf_append]; rfl, ?_⟩
  have found : (entries index)[inner.length]? = some entry := by rw [split]; simp
  have opener := trace.opener_openAt found
  have standing := trace.standing below
  rw [split] at standing
  by_cases loop : entry.frame.form = .loop
  · rw [if_pos (by simp [blockOf, loop])]
    have isOpened : entry.opener ≠ none := by
      intro absent
      cases standing.suffix with
      | body _ isBody => cases isBody.symm.trans loop
      | block _ _ present => cases absent.symm.trans present
    obtain ⟨start, opened⟩ := ne_none_iff_exists'.mp isOpened
    obtain ⟨earlier, ⟨_, opens⟩, first, second⟩ := trace.loop_start below split loop opened live
    have target : (contextOf ops).target (openAt ops index) inner.length = start := by
      rw [opened] at opener
      obtain ⟨block, blockFound, rfl⟩ := map_eq_some_iff.mp opener.symm
      obtain ⟨_, form⟩ := openAt_form (List.mem_of_getElem? blockFound)
      rw [opens] at form
      simp only [some.injEq, Operator.enter.injEq] at form
      simp [Context.target, blockFound, ← form.1]
    rw [target]
    exact ⟨earlier, opened, first, second⟩
  · rw [if_neg (by simp [blockOf, loop])]
    obtain ⟨close, since, closeHere, ends, inBlock, inBody⟩ :=
      trace.exists_ends annotated below split live
    have target : (contextOf ops).target (openAt ops index) inner.length = close := by
      cases blockFound : (openAt ops index)[inner.length]? with
      | none =>
        rw [blockFound] at opener
        have := inBody opener
        simp only [Context.target, blockFound, contextOf]
        omega
      | some block =>
        rw [blockFound] at opener
        have notLoop : block.form ≠ .loop := by
          intro isLoop
          obtain ⟨_, form⟩ := openAt_form (List.mem_of_getElem? blockFound)
          cases standing.suffix with
          | body none => cases none.symm.trans opener
          | block _ _ some opening _ arm =>
            cases opener.symm.trans some
            rw [form, isLoop] at opening
            cases opening
            rcases arm with ⟨same, _⟩ | ⟨absurd, _⟩
            · exact loop same
            · cases absurd
        simp only [Context.target, blockFound]
        cases form : block.form with
        | loop => exact absurd form notLoop
        | block | conditional => exact inBlock block.opener opener
    rw [target]
    refine ⟨?_, ends⟩
    rcases Nat.lt_or_eq_of_le since with less | same
    · exact less
    · subst same
      cases here.symm.trans closeHere
      exact absurd rfl unfinished

/-- Where control is taken up again after a transfer. -/
theorem resumes (here : ops[index]? = some op) (live : ∀ other ∈ outer, other.frame.Live)
    (after : entries (index + 1) = { head with frame := later } :: outer)
    (continues : head.frame.Continues later) (dead : later.unreachable = true) :
    Resumes body (shapesOf ops entries) index (blocksOf ops (head :: outer)) := by
  have below := lt_length here
  have inside : index + 1 < ops.length := trace.lt_of_entries (by omega) after
  have split : entries (index + 1) = [] ++ _ :: outer := after
  obtain ⟨next, frame, _, _, nextHere, ends, nextSplit, goes, between⟩ :=
    trace.exists_end inside split
  have depthAt : ∀ {place op}, ops[place]? = some op →
      ((contextOf ops).annotate (openAt ops place) place op).depth + 1 =
        (entries place).length := by
    intro place op placeHere
    rw [Context.annotate_depth]
    exact trace.length_openAt (lt_length placeHere)
  refine ⟨next, _, blockOf ops head outer, blocksOf ops outer, rfl, by omega,
    instruction_at annotated nextHere, by simpa using ends, ?_, ?_, ?_⟩
  · have depth := depthAt nextHere
    rw [nextSplit, length_cons] at depth
    rw [length_blocksOf]
    omega
  · rw [trace.shape_at_end nextHere ends nextSplit live]
    have same : blockOf ops { head with frame } outer = blockOf ops head outer :=
      blockOf_continues outer (continues.trans goes)
    rw [blocksOf_continues outer goes, blocksOf_continues outer continues, same]
  · intro place after' before
    obtain ⟨inner, frame', _, placeHere, placeSplit, placeGoes, quiet⟩ :=
      between place after' before
    have notLive : ¬ frame'.Live := by
      intro placeLive
      have := placeGoes.unreachable dead
      cases placeLive.reachable.symm.trans this
    refine ⟨?_, _, instruction_at annotated placeHere, ?_⟩
    · rw [shapesOf, placeSplit, placeHere]
      cases inner with
      | nil =>
        rw [List.nil_append, shapeOf, if_pos live, if_neg notLive, if_neg]
        simp [quiet]
      | cons first inner =>
        rw [cons_append, shapeOf, if_neg]
        intro allLive
        exact notLive (allLive _ (List.mem_append_right _ mem_cons_self))
    · simp only [Analysis.isSkipped, Bool.or_eq_true, decide_eq_true_eq, Bool.and_eq_true,
        Context.annotate_operator, bne_iff_ne]
      cases inner with
      | nil => exact .inr (quiet rfl)
      | cons first inner =>
        left
        have depth := depthAt placeHere
        rw [placeSplit] at depth
        simp only [List.length_append, length_cons] at depth
        rw [length_blocksOf]
        omega

end Trace

theorem Standing.opener_lt (standing : Standing source results ops index entries)
    (member : block ∈ blocksOf ops entries) (opened : block.opener = some opener) :
    opener < index := by
  induction standing with
  | body none =>
    rw [blocksOf, blocksOf, List.mem_singleton] at member
    subst member
    simp [blockOf, none] at opened
  | block _ _ some _ _ _ _ ih =>
    rcases mem_cons.mp member with same | deeper
    · subst same
      simp only [blockOf, some, Option.some.injEq] at opened
      omega
    · have := ih deeper
      omega

theorem isLoop_blockOf (arm : entry.frame.form = openedForm form ∧ entry.second = none ∨
      form = .conditional ∧ entry.frame.form = .otherwise)
    (outer : List Entry) : (blockOf ops entry outer).isLoop = (form == .loop) := by
  rcases arm with ⟨same, _⟩ | ⟨rfl, otherwise⟩
  · simp only [blockOf, same]
    cases form <;> rfl
  · simp only [blockOf, otherwise]
    rfl

theorem Standing.nested {type : FunctionType} {body : Body}
    (annotated : body.instructions = annotate ops)
    (standing : Standing source type.results ops index (entry :: outer))
    (own : List ValueKind) :
    Nested source type body (own ++ kindsOf outer) (blocksOf ops (entry :: outer)) := by
  induction outer generalizing index entry own with
  | nil =>
    cases standing with
    | body none form params same =>
      have block : blockOf ops entry [] = Block.body type.results := by
        simp [blockOf, Block.body, none, form, params, same, kindsOf]
      rw [blocksOf, block, kindsOf, List.flatMap_nil, List.append_nil]
      exact .body own
    | block around => cases around
  | cons next rest ih =>
    cases standing with
    | block around _ some op noted arm =>
      have beneath := ih around next.frame.kinds
      show Nested source type body
        (own ++ (blockOf ops entry (next :: rest)).beneath) (_ :: _)
      exact .block own beneath
        (fun _ member _ opened => around.opener_lt member opened) some
        (Trace.instruction_at annotated op)
        (Context.annotate_operator _ _ _ _) noted (isLoop_blockOf arm _)

/-! ## Flow -/

theorem label_blockOf (entry : Entry) (outer : List Entry) :
    (blockOf ops entry outer).label = entry.frame.labelKinds := by
  unfold Block.label Frame.labelKinds Frame.labelTypes blockOf
  by_cases loop : entry.frame.form = .loop <;> simp [loop]

theorem split_of_frame (found : (entries.map Entry.frame)[depth]? = some target) :
    ∃ inner entry outer, entries = inner ++ entry :: outer ∧ inner.length = depth ∧
      entry.frame = target := by
  rw [getElem?_map, map_eq_some_iff] at found
  obtain ⟨entry, here, same⟩ := found
  obtain ⟨below, rfl⟩ := List.getElem?_eq_some_iff.mp here
  refine ⟨entries.take depth, _, entries.drop (depth + 1), ?_, ?_, same⟩
  · rw [← List.drop_eq_getElem_cons below, List.take_append_drop]
  · rw [List.length_take]
    omega

theorem live_of_split (live : ∀ other ∈ outer, other.frame.Live)
    (split : head :: outer = inner ++ entry :: outer') : ∀ other ∈ outer', other.frame.Live := by
  intro other member
  cases inner with
  | nil =>
    cases split
    exact live other member
  | cons _ inner =>
    cases split
    exact live other (List.mem_append_right _ (mem_cons_of_mem _ member))

/-- Open blocks as typing sees them, split where the blocks of the check are. -/
theorem split_of_blocksOf {inner outer : List Block}
    (split : blocksOf ops entries = inner ++ block :: outer) :
    ∃ inner' entry outer', entries = inner' ++ entry :: outer' ∧
      block = blockOf ops entry outer' ∧ outer = blocksOf ops outer' := by
  induction entries generalizing inner with
  | nil => simp [blocksOf] at split
  | cons entry entries ih =>
    cases inner with
    | nil =>
      cases split
      exact ⟨[], entry, entries, rfl, rfl, rfl⟩
    | cons _ inner =>
      obtain ⟨inner', entry', outer', rest, here, around⟩ := ih (cons.inj split).2
      exact ⟨entry :: inner', entry', outer', by rw [rest]; rfl, here, around⟩

/-- An open block of a shape is one of the check, and the blocks around it can be reached. -/
theorem exists_entry {entries : Nat → List Entry} {inner outer : List Block}
    (found : shapesOf ops entries index = some shape)
    (split : shape.blocks = inner ++ block :: outer) :
    ∃ inner' entry outer', entries index = inner' ++ entry :: outer' ∧
      (∀ other ∈ outer', other.frame.Live) ∧
      block = blockOf ops entry outer' ∧ outer = blocksOf ops outer' := by
  obtain ⟨_, _, whole, live, blocks, _⟩ := shapeOf_eq_some found
  rw [blocks] at split
  obtain ⟨inner', entry, outer', here, same, around⟩ := split_of_blocksOf split
  exact ⟨inner', entry, outer', whole.trans here, live_of_split live here, same, around⟩

/-- The operands of the blocks around an open block are the last of all. -/
theorem kinds_of_split (split : head :: outer = inner ++ entry :: outer') :
    ∃ between, kindsOf outer = between ++ (blockOf ops entry outer').beneath := by
  cases inner with
  | nil =>
    cases split
    exact ⟨[], rfl⟩
  | cons _ inner =>
    cases split
    exact ⟨kindsOf (inner ++ [entry]), by simp [kindsOf, blockOf]⟩

theorem Standing.bodyKinds_eq (standing : Standing source results ops index entries) :
    bodyKinds (entries.map Entry.frame) = results := by
  induction standing with
  | body _ _ _ same => exact same
  | @block _ _ _ _ _ outer around _ _ _ _ _ _ ih =>
    cases outer with
    | nil => cases around
    | cons =>
      unfold bodyKinds at ih ⊢
      simpa [List.getLast?_cons_cons] using ih

namespace Trace

variable {type : FunctionType} {body : Body} {entries : Nat → List Entry}

theorem shape_after {later : Frame} (live : ∀ other ∈ outer, other.frame.Live)
    (laterLive : later.Live) (after : entries (index + 1) = { head with frame := later } :: outer)
    (continues : head.frame.Continues later) :
    shapesOf ops entries (index + 1) =
      some ⟨later.kinds ++ kindsOf outer, blocksOf ops (head :: outer)⟩ := by
  rw [shapesOf, after, shapeOf_live, blocksOf_continues outer continues]
  · rfl
  · exact List.forall_mem_cons.mpr ⟨laterLive, live⟩

variable (trace : Trace source (type.params ++ body.locals) type.results ops entries)
  (annotated : body.instructions = annotate ops)

include trace annotated

section

variable (here : ops[index]? = some op) (flat : Validation.nests op = false)
  (split : entries index = head :: outer) (live : ∀ other ∈ outer, other.frame.Live)

include here flat split live

theorem lands_frame (found : ((head :: outer).map Entry.frame)[depth]? = some target) :
    ∃ block, Lands body (shapesOf ops entries) index (blocksOf ops (head :: outer))
        depth ((contextOf ops).target (openAt ops index) depth) block ∧
      block.label = target.labelKinds ∧ ∃ between, kindsOf outer = between ++ block.beneath := by
  obtain ⟨_, entry, outer', inside, rfl, rfl⟩ := split_of_frame found
  have unfinished : op ≠ .finish := by
    intro same
    subst same
    cases flat
  refine ⟨blockOf ops entry outer', ?_, label_blockOf entry outer', kinds_of_split inside⟩
  have landing := trace.lands annotated here unfinished (split.trans inside)
    (live_of_split live inside)
  rwa [split] at landing

/-- The flow of an operator that neither opens nor closes a block. -/
theorem flow_flat (headLive : head.frame.Live) :
    OperatorFlow source type body (shapesOf ops entries) index
      ⟨kindsOf (head :: outer), blocksOf ops (head :: outer)⟩
      ((contextOf ops).annotate (openAt ops index) index op) := by
  obtain ⟨_, _, _, same, after, continues, effect⟩ := (EntryStep.flat_iff flat).mp (trace.step here)
  rw [split] at same effect
  cases same
  have effect := effect headLive
  have standing := trace.standing (lt_length here)
  rw [split] at standing
  have bodyKinds := standing.bodyKinds_eq
  have resumes := trace.resumes annotated here live after continues
  cases op with
  | enter | otherwise | finish => cases flat
  | unreachable => exact resumes effect.1
  | branch depth =>
    obtain ⟨target, found, dead, rest, kinds⟩ := effect
    obtain ⟨block, landing, label, between, around⟩ :=
      trace.lands_frame annotated here flat split live found
    refine ⟨resumes dead, _, block, rest ++ between, rfl, landing, ?_⟩
    simp [kindsOf_cons, kinds, label, around]
  | branchIf depth =>
    obtain ⟨target, found, laterLive, rest, kinds, laterKinds⟩ := effect
    obtain ⟨block, landing, label, between, around⟩ :=
      trace.lands_frame annotated here flat split live found
    refine ⟨_, block, rest ++ between, rfl, rfl, landing, ?_, ?_⟩
    · simp [kindsOf_cons, kinds, label, around]
    · rw [shape_after live laterLive after continues, laterKinds, label, around]
      simp
  | branchTable _ fallback =>
    obtain ⟨last, _, dead, rest, kinds⟩ := effect fallback (by simp)
    rw [List.reverse_append, List.reverse_singleton, List.singleton_append] at kinds
    refine ⟨resumes dead, by simp [Context.annotate],
      last.labelKinds.reverse ++ rest ++ kindsOf outer, ?_, fun _ depth listed => ?_⟩
    · simp [kindsOf_cons, kinds]
    · obtain ⟨target, found, _, beneath, others⟩ := effect depth (List.mem_of_getElem? listed)
      obtain ⟨block, landing, label, between, around⟩ :=
        trace.lands_frame annotated here flat split live found
      refine ⟨_, block, beneath ++ between, ?_, landing, ?_⟩
      · simp only [Context.annotate, getElem?_map, listed, map_some]
      · rw [kinds, List.reverse_append, List.reverse_singleton, List.singleton_append] at others
        have same : last.labelKinds.reverse ++ rest = target.labelKinds.reverse ++ beneath :=
          (cons.inj others).2
        rw [same, label, around]
        simp
  | leave =>
    obtain ⟨dead, rest, kinds⟩ := effect
    refine ⟨resumes dead, rest ++ kindsOf outer, ?_⟩
    rw [kindsOf_cons, kinds, bodyKinds, append_assoc]
  | tailCall =>
    obtain ⟨callee, found, sameResults, dead, rest, kinds⟩ := effect
    refine ⟨resumes dead, callee, rest ++ kindsOf outer, found, sameResults.trans bodyKinds, ?_⟩
    rw [kindsOf_cons, kinds, append_assoc]
  | tailCallIndirect =>
    obtain ⟨callee, kind, found, tableFound, element, sameResults, dead, rest, kinds⟩ := effect
    refine ⟨resumes dead, callee, kind, rest ++ kindsOf outer, found, tableFound, element,
      sameResults.trans bodyKinds, ?_⟩
    simp [kindsOf_cons, kinds]
  | _ =>
    obtain ⟨params, results, effect, laterLive, rest, kinds, laterKinds⟩ := effect
    refine ⟨params, results, rest ++ kindsOf outer, effect, ?_, ?_⟩
    · rw [kindsOf_cons, kinds, append_assoc]
    · rw [shape_after live laterLive after continues, laterKinds, append_assoc]

end

/-- Where a conditional goes if its condition does not hold: to its second arm if it has one, and
otherwise to its end. -/
theorem conditional_target (below : index < ops.length)
    (split : entries (index + 1) = entry :: outer) (live : ∀ other ∈ outer, other.frame.Live)
    (opened : entry.opener = some index) (form : entry.frame.form = .conditional)
    (second : entry.second = none) :
    ∃ target, some ((((contextOf ops).extent index).otherwise.map (· + 1)).getD
        ((contextOf ops).extent index).finish) = some target ∧ index < target ∧
      shapesOf ops entries target = some ⟨(blockOf ops entry outer).entry,
          (blockOf ops entry outer).settled :: blocksOf ops outer⟩ ∧
      (blockOf ops entry outer).pending =
        ((body.instructions[target - 1]?).map Instruction.operator == some .otherwise) := by
  have inside : index + 1 < ops.length := trace.lt_of_entries below split
  have first : entries (index + 1) = [] ++ entry :: outer := split
  obtain ⟨close, last, _, here, closeSplit, opener, params, sameResults, arm⟩ :=
    trace.exists_close inside first
  have extent := trace.extent_of_finish here closeSplit (opener.trans opened)
  have pending : (blockOf ops entry outer).pending = last.second.isSome := by
    simp [blockOf, form, divided, opened, extent]
  rcases arm with ⟨sameSecond, sameForm⟩ | ⟨_, _, start, _, secondStart, _, _,
    startHere, startSplit⟩
  · -- There is no second arm, so the parameters are the results.
    have none : last.second = none := sameSecond.trans second
    refine ⟨close, by simp [extent, none], by omega, ?_, ?_⟩
    · have settled := blockOf_eq_settled opener params sameResults (.inl sameForm)
        (trace.pending_at_finish here closeSplit)
      rw [trace.shape_at_end here (.inr rfl) closeSplit live, blocksOf, settled]
      obtain ⟨_, _, same, _, arms, _⟩ := trace.step here
      cases closeSplit.symm.trans same
      have arms := arms (sameForm.trans form)
      rw [params, sameResults] at arms
      simp [Block.exit, Block.entry, Block.settled, blockOf, arms]
    · rw [pending, none, isSome_none, eq_comm, beq_eq_false_iff_ne]
      intro divides
      obtain ⟨previous, _, rfl⟩ : ∃ previous, previous < close ∧ close = previous + 1 :=
        ⟨close - 1, by omega, by omega⟩
      rw [Nat.add_sub_cancel, annotated, annotate_get] at divides
      have divider : ops[previous]? = some .otherwise := by
        cases found : ops[previous]? with
        | none => rw [found] at divides; cases divides
        | some op =>
          rw [found] at divides
          simpa using divides
      obtain ⟨_, _, _, _, _, _, divided⟩ := trace.step divider
      cases closeSplit.symm.trans divided
      cases none
  · refine ⟨start + 1, by simp [extent, secondStart], by omega, ?_, ?_⟩
    · rw [shapesOf, startSplit, shapeOf_live, kindsOf_cons, Frame.enter_kinds]
      · rw [blocksOf, blockOf_second form]
        rfl
      · exact List.forall_mem_cons.mpr ⟨Frame.enter_live _ _ _, live⟩
    · rw [pending, secondStart, Nat.add_sub_cancel, annotated, annotate_get, startHere]
      simp

theorem flow_enter {note : BlockType} (here : ops[index]? = some (.enter form note))
    (split : entries index = head :: outer) (live : ∀ other ∈ outer, other.frame.Live)
    (headLive : head.frame.Live) : OperatorFlow source type body (shapesOf ops entries) index
      ⟨kindsOf (head :: outer), blocksOf ops (head :: outer)⟩
      ((contextOf ops).annotate (openAt ops index) index (.enter form note)) := by
  obtain ⟨_, later, _, signature, assigned, noted, same, after, continues, effect⟩ :=
    trace.step here
  cases split.symm.trans same
  obtain ⟨laterLive, kinds⟩ := effect headLive
  -- The block that is opened, and what lies around it from now on.
  generalize opened : (⟨Frame.enter (openedForm form) signature assigned, some index, none⟩ :
    Entry) = entry at after
  generalize around : ({ head with frame := later } : Entry) :: outer = beneath at after
  have beneathLive : ∀ other ∈ beneath, other.frame.Live := by
    subst around
    exact List.forall_mem_cons.mpr ⟨laterLive, live⟩
  have sameBlocks : blocksOf ops (head :: outer) = blocksOf ops beneath := by
    subst around
    exact (blocksOf_continues outer continues).symm
  have entryKinds : (blockOf ops entry beneath).entry =
      (signature.params.map kindOf).reverse ++ kindsOf beneath := by
    subst opened
    rfl
  have operands : kindsOf (head :: outer) =
      (conditionKinds form).reverse ++ (blockOf ops entry beneath).entry := by
    rw [entryKinds, kindsOf_cons, kinds, ← around, kindsOf_cons]
    simp
  have next : shapesOf ops entries (index + 1) =
      some ⟨(blockOf ops entry beneath).entry,
        blockOf ops entry beneath :: blocksOf ops beneath⟩ := by
    rw [shapesOf, after, shapeOf_live, kindsOf_cons, entryKinds]
    · subst opened
      rw [Frame.enter_kinds]
      rfl
    · intro other member
      rcases mem_cons.mp member with same | deeper
      · subst same opened
        exact Frame.enter_live _ _ _
      · exact beneathLive other deeper
  have blockType : source.blockType note = .ok (blockOf ops entry beneath).type := by
    subst opened
    exact noted
  have opener : (blockOf ops entry beneath).opener = some index := by
    subst opened
    rfl
  cases form with
  | block | loop =>
    refine ⟨blockOf ops entry beneath, blockType, opener, ?_, ?_, operands, ?_⟩
    · subst opened; rfl
    · subst opened; rfl
    · rw [sameBlocks]
      exact next
  | conditional =>
    obtain ⟨target, label, later, shape, pending⟩ := trace.conditional_target annotated
      (lt_length here) after beneathLive opener (by subst opened; rfl)
      (by subst opened; rfl)
    refine ⟨blockOf ops entry beneath, target, blockType, opener, ?_, operands, ?_, label,
      later, ?_, pending⟩
    · subst opened; rfl
    · rw [sameBlocks]
      exact next
    · rw [sameBlocks]
      exact shape

/-- The flow of an operator that starts a second arm. -/
theorem flow_otherwise (here : ops[index]? = some .otherwise)
    (split : entries index = head :: outer) (live : ∀ other ∈ outer, other.frame.Live) :
    OperatorFlow source type body (shapesOf ops entries) index
      ⟨(blockOf ops head outer).exit, blocksOf ops (head :: outer)⟩
      ((contextOf ops).annotate (openAt ops index) index .otherwise) := by
  have below := lt_length here
  have standing := trace.standing below
  rw [split] at standing
  obtain ⟨_, _, _, same, form, _, after⟩ := trace.step here
  cases split.symm.trans same
  obtain ⟨_, opened⟩ := ne_none_iff_exists'.mp (standing.opener_ne_none form)
  have inside : index + 1 < ops.length := trace.lt_of_entries below after
  have secondArm : entries (index + 1) = [] ++ _ :: outer := after
  obtain ⟨close, last, _, closeHere, closeSplit, lastOpener, params, sameResults, arm⟩ :=
    trace.exists_close inside secondArm
  have sameSecond : last.second = some index ∧ last.frame.form = .otherwise := by
    rcases arm with ⟨sameSecond, sameForm⟩ | ⟨absurd, _⟩
    · exact ⟨sameSecond, sameForm⟩
    · cases absurd
  have extent := trace.extent_of_finish closeHere closeSplit (lastOpener.trans opened)
  refine ⟨blockOf ops head outer, blocksOf ops outer, close, rfl, ?_, rfl, ?_, ?_,
    by omega, ?_, _, instruction_at annotated closeHere, rfl, ?_⟩
  · simp [blockOf, form, divided, opened, extent, sameSecond.1]
  · rw [shapesOf, after, shapeOf_live, kindsOf_cons, Frame.enter_kinds]
    · rw [blocksOf, blockOf_second form]
      rfl
    · exact List.forall_mem_cons.mpr ⟨Frame.enter_live _ _ _, live⟩
  · simp [Context.annotate, trace.scope_eq split, opened, extent]
  · have settled : blockOf ops last outer = (blockOf ops head outer).settled :=
      blockOf_eq_settled lastOpener params sameResults (.inr ⟨form, sameSecond.2⟩)
        (trace.pending_at_finish closeHere closeSplit)
    rw [trace.shape_at_end closeHere (.inr rfl) closeSplit live, blocksOf, settled]
    rfl
  · exact (trace.scope_eq closeSplit).trans lastOpener

theorem flow_finish (here : ops[index]? = some .finish)
    (split : entries index = head :: outer) (live : ∀ other ∈ outer, other.frame.Live) :
    OperatorFlow source type body (shapesOf ops entries) index
      ⟨(blockOf ops head outer).exit, blocksOf ops (head :: outer)⟩
      ((contextOf ops).annotate (openAt ops index) index .finish) := by
  refine ⟨blockOf ops head outer, blocksOf ops outer, rfl,
    trace.pending_at_finish here split, rfl, ?_⟩
  obtain ⟨_, _, same, _, _, ends⟩ := trace.step here
  cases split.symm.trans same
  rcases ends with ⟨rfl, _⟩ | ⟨next, rest, rfl, after⟩
  · left
    refine ⟨rfl, ?_⟩
    rw [annotated, annotate_size]
    exact trace.last_of_finish here split
  · right
    refine ⟨by simp [blocksOf], ?_⟩
    have pushed : (next.frame.push head.frame.results).Live :=
      Frame.push_live (live next mem_cons_self)
    have others : ∀ other ∈ rest, other.frame.Live :=
      fun other member => live other (mem_cons_of_mem _ member)
    rw [shape_after others pushed after ⟨rfl, rfl, rfl, id⟩, Frame.push_kinds, append_assoc]
    rfl

omit annotated in
theorem lt_of_shape (found : shapesOf ops entries index = some shape) : index < ops.length := by
  rcases Nat.lt_or_ge index ops.length with less | beyond
  · exact less
  · rw [shapesOf, trace.finish beyond] at found
    cases found

/-- A check of a whole body gives the shapes of its instructions. -/
theorem bodyTyped : BodyTyped source type body (shapesOf ops entries) := by
  constructor
  · obtain ⟨entry, only, live, kinds⟩ := trace.start
    have below : 0 < ops.length := by
      rcases Nat.eq_zero_or_pos ops.length with empty | filled
      · have := trace.finish (Nat.le_of_eq empty)
        rw [only] at this
        cases this
      · exact filled
    have standing := trace.standing below
    rw [only] at standing
    have around : ∀ other ∈ [entry], other.frame.Live := by
      intro other member
      rw [List.mem_singleton] at member
      subst member
      exact live
    rw [shapesOf, only, shapeOf_live around, kindsOf_cons, kinds, blocksOf, blocksOf]
    cases standing with
    | body none form params same => simp [kindsOf, blockOf, Block.body, none, form, params, same]
    | block outer => cases outer
  · intro index shape found
    cases here : ops[index]? with
    | none =>
      rw [shapesOf, trace.finish (List.getElem?_eq_none_iff.mp here)] at found
      cases found
    | some op =>
      have below := lt_length here
      have standing := trace.standing below
      rw [shapesOf] at found
      obtain ⟨head, outer, split, live, blocks, reached⟩ := shapeOf_eq_some found
      rw [split] at standing
      refine ⟨_, instruction_at annotated here, ?_, ?_, ?_, ?_⟩
      · have length := trace.length_openAt below
        rw [split] at length
        rw [Context.annotate_depth, blocks, length_blocksOf, length]
      · rw [Context.annotate_scope, trace.scope_eq split, blocks]
        rfl
      · rw [blocks]
        rcases reached with ⟨_, operands⟩ | ⟨_, operands, _⟩
        · rw [operands]
          exact standing.nested annotated head.frame.kinds
        · rw [operands]
          exact standing.nested annotated _
      · cases shape with
        | mk operands =>
          cases blocks
          cases nests : nests op with
          | false =>
            rcases reached with ⟨headLive, rfl⟩ | ⟨_, _, ends⟩
            · exact trace.flow_flat annotated here nests split live headLive
            · rw [here] at ends
              rcases ends with same | same <;> cases same <;> cases nests
          | true =>
            cases op with
            | enter form =>
              rcases reached with ⟨headLive, rfl⟩ | ⟨_, _, ends⟩
              · exact trace.flow_enter annotated here split live headLive
              · rw [here] at ends
                rcases ends with same | same <;> cases same
            | otherwise =>
              have shape := trace.shape_at_end here (.inl rfl) split live
              rw [shapesOf, found] at shape
              cases shape
              exact trace.flow_otherwise annotated here split live
            | finish =>
              have shape := trace.shape_at_end here (.inr rfl) split live
              rw [shapesOf, found] at shape
              cases shape
              exact trace.flow_finish annotated here split live
            | _ => cases nests

theorem closed_at (below : index < ops.length)
    (split : entries index = inner ++ entry :: outer) (live : ∀ other ∈ outer, other.frame.Live)
    (here : ops[close]? = some .finish)
    (scope : (openAt ops close).head?.map OpenBlock.opener = entry.opener) :
    shapesOf ops entries close = some ⟨(blockOf ops entry outer).exit,
        (blockOf ops entry outer).settled :: blocksOf ops outer⟩ := by
  obtain ⟨close', _, _, ends, inBlock, inBody⟩ := trace.exists_ends annotated below split live
  suffices same : close = close' by rw [same]; exact ends.1
  have closeBelow := lt_length here
  have standing := trace.standing closeBelow
  obtain ⟨_, _, closeSplit, _⟩ := trace.step here
  rw [trace.scope_eq closeSplit] at scope
  cases opened : entry.opener with
  | none =>
    rw [closeSplit] at standing
    rw [standing.outer_eq_nil (scope.trans opened)] at closeSplit
    have := trace.last_of_finish here closeSplit
    have := inBody opened
    omega
  | some opener =>
    have extent := trace.extent_of_finish here closeSplit (scope.trans opened)
    have finish := inBlock opener opened
    rw [extent] at finish
    exact finish

/-- The blocks of a check are delimited. -/
theorem delimited : Delimited source body (shapesOf ops entries) := by
  constructor
  · intro index _ shape inner outer block found split opened
    obtain ⟨inner', entry, outer', here, live, rfl, rfl⟩ := exists_entry found split
    have below := trace.lt_of_shape found
    obtain ⟨_, _, _, op, shaped⟩ := trace.opener_shape below here opened live
    have standing := trace.standing below
    rw [here] at standing
    cases standing.suffix with
    | body none => exact absurd (none.symm.trans opened) (by simp)
    | block _ _ some opening noted arm =>
      obtain rfl := Option.some.inj (some.symm.trans opened)
      obtain ⟨rfl, rfl⟩ := Operator.enter.inj (Option.some.inj (opening.symm.trans op))
      exact ⟨_, _, _, instruction_at annotated op,
        Context.annotate_operator _ _ _ _, noted, isLoop_blockOf arm _, shaped⟩
  · intro index _ shape inner outer block _ found split here finish scope
    obtain ⟨inner', entry, outer', splitHere, live, rfl, rfl⟩ := exists_entry found split
    rw [annotated, annotate_get, Option.map_eq_some_iff] at here
    obtain ⟨op, operatorHere, rfl⟩ := here
    rw [Context.annotate_operator] at finish
    subst finish
    exact trace.closed_at annotated (trace.lt_of_shape found) splitHere live operatorHere scope

end Trace

end

/-! ## Traces of checks -/

section

variable {context : Validation.Context} {source : Module} {locals : List ValueKind}
  {results : List Binary.ValType} {written : List Binary.Operator} {ops : List Operator}

def initialState (results : List Binary.ValType) : State :=
  ⟨[Frame.enter .body ⟨[], results⟩ []], []⟩

def entriesAt (context : Validation.Context) (results : List Binary.ValType)
    (written : List Binary.Operator) (ops : List Operator) (index : Nat) : List Entry :=
  match steps context (initialState results) (written.take index) with
  | some state => entriesOf state.frames (pendingAt ops index)
  | none => []

theorem steps_append (state : State) (first second : List Binary.Operator) :
    steps context state (first ++ second) =
      (steps context state first).bind (steps context · second) := by
  induction first generalizing state with
  | nil => rfl
  | cons op _ ih =>
    simp only [cons_append, steps]
    cases step context state op with
    | none => rfl
    | some next => exact ih next

theorem steps_take_succ (here : written[index]? = some op) :
    steps context state (written.take (index + 1)) = (steps context state (written.take index)).bind
        (step context · op) := by
  rw [List.take_add_one, here, steps_append]
  congr 1
  funext next
  simp only [toList_some, steps]
  cases step context next op <;> rfl

theorem exists_steps_take (checked : steps context state written = some final) (index : Nat) :
    ∃ middle, steps context state (written.take index) = some middle := by
  rw [← List.take_append_drop index written, steps_append, bind_eq_some_iff] at checked
  obtain ⟨middle, before, _⟩ := checked
  exact ⟨middle, before⟩

/-- A check that succeeds leaves a trace. -/
theorem trace_of_bodyTyped (agrees : Agrees context source locals)
    (supported : written.mapM Binary.Operator.supported = .ok ops)
    (typed : bodyTyped context results written = true) :
    Trace source locals (results.map kindOf) ops (entriesAt context results written ops) := by
  have size := length_of_mapM supported
  have checked : ∃ final, steps context (initialState results) written = some final ∧
      final.frames = [] := by
    unfold bodyTyped at typed
    split at typed
    · rename_i final done
      exact ⟨final, done, List.isEmpty_iff.mp typed⟩
    · cases typed
  obtain ⟨final, done, empty⟩ := checked
  have opened : ∀ {index : Nat} {state : State},
      steps context (initialState results) (written.take index) = some state →
      entriesAt context results written ops index =
        entriesOf state.frames (pendingAt ops index) := by
    intro index state reached
    rw [entriesAt, reached]
  have stepped : ∀ {index : Nat} {op : Operator}, ops[index]? = some op →
      (entriesAt context results written ops index = [] ∨
        Standing source (results.map kindOf) ops index
          (entriesAt context results written ops index)) →
      EntryStep source locals index (entriesAt context results written ops index)
        (entriesAt context results written ops (index + 1)) op := by
    intro index op here standing
    obtain ⟨form, writtenHere, supports⟩ := preimage_of_mapM supported here
    obtain ⟨state, reached⟩ := exists_steps_take done index
    obtain ⟨next, nextReached⟩ := exists_steps_take done (index + 1)
    have step := nextReached
    rw [steps_take_succ writtenHere, reached, bind_some] at step
    rw [opened reached, opened nextReached, pendingAt_succ here]
    apply entryStep_of_step agrees supports step
    intro _ _ frames conditional none
    rw [opened reached, frames, entriesOf] at standing
    rcases standing with absurd | standing
    · cases absurd
    · exact standing.opener_ne_none conditional (by rw [none]; rfl)
  have standing : ∀ {index : Nat}, index < ops.length →
      Standing source (results.map kindOf) ops index
        (entriesAt context results written ops index) := by
    intro index below
    induction index with
    | zero => exact .body rfl rfl rfl rfl fun _ => Frame.enter_live _ _ _
    | succ index ih =>
      have before := ih (by omega)
      have here : ops[index]? = some ops[index] := List.getElem?_eq_getElem (by omega)
      rcases before.step here (stepped here (.inr before)) with closed | after
      · -- No operator can follow the end of the body.
        have next : ops[index + 1]? = some ops[index + 1] :=
          List.getElem?_eq_getElem below
        have absurd := stepped next (.inl closed)
        rw [closed] at absurd
        cases nests : nests ops[index + 1] with
        | false =>
          obtain ⟨_, _, _, absurd, _⟩ := (EntryStep.flat_iff nests).mp absurd
          cases absurd
        | true =>
          generalize ops[index + 1] = op at absurd nests
          cases op with
          | enter =>
            obtain ⟨_, _, _, _, _, _, absurd, _⟩ := absurd
            cases absurd
          | otherwise =>
            obtain ⟨_, _, _, absurd, _⟩ := absurd
            cases absurd
          | finish =>
            obtain ⟨_, _, absurd, _⟩ := absurd
            cases absurd
          | _ => cases nests
      · exact after
  constructor
  · exact ⟨_, rfl, Frame.enter_live _ _ _, Frame.enter_kinds _ _ _⟩
  · intro index _
    have reached : steps context (initialState results) (written.take index) =
        some final := by rw [List.take_of_length_le (by omega), done]
    rw [opened reached, empty]
    rfl
  · intro index op here
    exact stepped here (.inr (standing (lt_length here)))
  · exact standing
  · intro index
    obtain ⟨state, reached⟩ := exists_steps_take done index
    exact ⟨state.frames, opened reached⟩

end

end TwinEngine.Typing
