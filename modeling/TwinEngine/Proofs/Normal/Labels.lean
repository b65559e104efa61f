import TwinEngine.Proofs.Normal.Code

/-!
Contract: the labels of code drawn from a typed body.

Owns: which labels code defines, that none is defined twice, and that every label that is jumped to
is defined.

Labels of instructions lie below the body's length, those of stubs from there on, and each
instruction takes a stretch of its own.
-/

namespace TwinEngine.Normal

open Typing
open List (mem_cons range' mem_append mem_singleton mem_range'_1)
open Instruction (labels)
open Normalized (targets)

def labelsOf (code : List Normalized) : List Nat :=
  code.filterMap fun
    | .label label => some label
    | _ => none

@[simp] theorem labelsOf_append (first second : List Normalized) :
    labelsOf (first ++ second) = labelsOf first ++ labelsOf second :=
  List.filterMap_append

@[simp] theorem mem_labelsOf : label ∈ labelsOf code ↔ .label label ∈ code := by
  simp only [labelsOf, List.mem_filterMap]
  constructor
  · rintro ⟨instr, member, same⟩
    cases instr with
    | label =>
      cases same
      exact member
    | _ => cases same
  · intro member
    exact ⟨_, member, rfl⟩

theorem count_labelsOf (code : List Normalized) (label : Nat) :
    code.count (.label label) = (labelsOf code).count label := by
  induction code with
  | nil => rfl
  | cons instr code ih =>
    rw [List.count_cons, ih]
    cases instr <;> simp [labelsOf, List.count_cons]

/-! ## Marks -/

private theorem getD_foldl_set (labels : List Nat) (marks : Array Bool)
    (inside : label < marks.size) (marked : label ∈ labels ∨ marks.getD label false = true) :
    (labels.foldl (fun marks label => marks.setIfInBounds label true) marks).getD label false =
      true := by
  induction labels generalizing marks with
  | nil => exact marked.resolve_left List.not_mem_nil
  | cons other labels ih =>
    refine ih _ (by simpa using inside) ?_
    have here : (marks.setIfInBounds other true).getD label false =
        if other = label then true else marks.getD label false := by
      simp only [Array.getD_eq_getD_getElem?, Array.getElem?_setIfInBounds]
      split
      · simp [*]
      · rfl
    rw [here]
    rcases marked with member | before
    · rcases mem_cons.mp member with same | later
      · exact .inr (if_pos same.symm)
      · exact .inl later
    · refine .inr ?_
      rw [before]
      split <;> rfl

theorem mark_of_label {index label : Nat} (found : body.instructions[index]? = some instr)
    (jumps : label ∈ instr.labels) (inside : label < body.instructions.size) :
    mark body label = [.label label] := by
  have listed : label ∈ body.instructions.toList.flatMap labels :=
    List.mem_flatMap.mpr ⟨instr, by simpa using Array.mem_of_getElem? found, jumps⟩
  have marked : (Analysis.labelMarks body.instructions).getD label false = true := by
    rw [Analysis.labelMarks, ← Array.foldl_toList, ← List.foldl_flatMap]
    exact getD_foldl_set _ _ (by simpa using inside) (.inl listed)
  rw [mark, if_pos marked]

theorem labelsOf_mark (body : Body) (index : Nat) :
    labelsOf (mark body index) = [] ∨ labelsOf (mark body index) = [index] := by
  unfold mark
  split
  · exact .inr rfl
  · exact .inl rfl

/-! ## Labels of pieces -/

theorem labelsOf_stubsCode (base : Nat) (stubs : List Stub) :
    labelsOf (stubsCode base stubs) = List.range' base stubs.length := by
  induction stubs generalizing base with
  | nil => rfl
  | cons _ stubs ih =>
    rw [List.length_cons, List.range'_succ, ← ih]
    rfl

theorem labelsOf_jump (own carried : List ValueKind) (target : Nat) :
    labelsOf ((unwind own carried).toList ++ [.goto target]) = [] := by
  unfold unwind
  split <;> rfl

theorem targets_jump (member : instr ∈ (unwind own carried).toList ++ [.goto target])
    (jumps : label ∈ instr.targets) : label = target := by
  rcases mem_append.mp member with unwinds | last
  · unfold unwind at unwinds
    split at unwinds
    · cases unwinds
    · simp only [Option.toList_some, mem_singleton] at unwinds
      subst unwinds
      cases jumps
  · rw [mem_singleton] at last
    subst last
    simpa [targets] using jumps

theorem targets_stubsCode (member : instr ∈ stubsCode base stubs)
    (jumps : label ∈ instr.targets) : ∃ stub ∈ stubs, label = stub.target := by
  induction stubs generalizing base with
  | nil => cases member
  | cons stub stubs ih =>
    simp only [stubsCode, mem_cons] at member
    rcases member with rfl | rfl | rfl | later
    · cases jumps
    · cases jumps
    · exact ⟨stub, List.mem_cons_self, by simpa [targets] using jumps⟩
    · obtain ⟨other, listed, same⟩ := ih later
      exact ⟨other, List.mem_cons_of_mem _ listed, same⟩

/-- The labels that a piece takes are those that it defines. It jumps to them and to the targets of
its instruction. -/
def Labelled (instr : Instruction) (base next : Nat) (piece : List Normalized) : Prop :=
  ∃ count, next = base + count ∧ labelsOf piece = List.range' base count ∧
    ∀ other ∈ piece, ∀ label ∈ other.targets,
      label ∈ instr.labels ∨ label ∈ labelsOf piece

theorem labelled_single (code : piece = [other]) (plain : labelsOf [other] = [])
    (targets : ∀ label ∈ other.targets, label ∈ instr.labels) : Labelled instr base base piece := by
  subst code
  refine ⟨0, rfl, plain, fun other member label jumps => .inl ?_⟩
  rw [mem_singleton] at member
  subst member
  exact targets label jumps

theorem labelled_of_piece (flow : OperatorFlow source type body shapes index shape instr)
    (drawn : Piece type index shape instr base next piece) : Labelled instr base next piece := by
  cases same : instr.operator with simp only [OperatorFlow, Piece, same] at flow drawn
  | branchTable targets =>
    obtain ⟨_, length, _⟩ := flow
    obtain ⟨rest, _, ⟨target, _, _, own, table, _, _, rfl, rfl⟩ |
      ⟨routes, stubs, routed, rfl, rfl⟩⟩ := drawn
    · refine ⟨0, rfl, labelsOf_jump _ _ _, fun other member label jumps => .inl ?_⟩
      rcases mem_cons.mp member with rfl | later
      · cases jumps
      · rw [targets_jump later jumps]
        simp [labels, table]
    · have taken : labelsOf (.switch routes :: stubsCode base stubs) =
          range' base stubs.length := labelsOf_stubsCode base stubs
      refine ⟨stubs.length, rfl, taken, fun other member label jumps => ?_⟩
      rcases mem_cons.mp member with rfl | later
      · obtain ⟨entry, found⟩ := List.mem_iff_getElem?.mp jumps
        have inside : entry < instr.labelTable.length := routed.length ▸ lt_length found
        have target := List.getElem?_eq_getElem inside
        have listed := List.getElem?_eq_getElem (length ▸ inside)
        obtain ⟨block, own, route, _, found', goes⟩ := routed.entry listed target
        have through : route = label := Option.some.inj (found'.symm.trans found)
        subst through
        rcases goes with ⟨_, rfl⟩ | ⟨place, rfl, stub⟩
        · exact .inl (by simp [labels])
        · have within := lt_length stub
          rw [taken, mem_range'_1]
          exact .inr ⟨by omega, by omega⟩
      · obtain ⟨stub, listed, rfl⟩ := targets_stubsCode later jumps
        obtain ⟨entry, _, _, _, found, _⟩ := routed.stub stub listed
        exact .inl (by simp [labels, List.mem_of_getElem? found])
  | branch depth =>
    obtain ⟨rfl, target, block, own, label, _, rfl⟩ := drawn
    refine ⟨0, rfl, labelsOf_jump _ _ _, fun other member there jumps => .inl ?_⟩
    rw [targets_jump member jumps]
    simp [labels, label]
  | branchIf depth =>
    obtain ⟨_, _⟩ := flow
    obtain ⟨rfl, target, block, rest, own, label, _, _, code⟩ := drawn
    by_cases empty : own = []
    · simp only [unwind, empty, if_true] at code
      exact labelled_single code rfl (by simp [targets, labels, label])
    · simp only [unwind, empty, if_false] at code
      refine ⟨0, rfl, by rw [code]; rfl, fun other member there jumps => .inl ?_⟩
      simp only [code, mem_cons, List.not_mem_nil, or_false] at member
      rcases member with rfl | rfl | rfl
      · simp_all [targets, labels]
      · cases jumps
      · simp_all [targets, labels]
  | enter form =>
    cases form with
    | conditional =>
      obtain ⟨rfl, target, label, code⟩ := drawn
      exact labelled_single code rfl (by simp [targets, labels, label])
    | block | loop =>
      obtain ⟨rfl, rfl⟩ := drawn
      exact ⟨0, rfl, rfl, by simp⟩
  | otherwise =>
    obtain ⟨rfl, target, label, code⟩ := drawn
    exact labelled_single code rfl (by simp [targets, labels, label])
  | nop | finish =>
    obtain ⟨rfl, rfl⟩ := drawn
    exact ⟨0, rfl, rfl, by simp⟩
  | tailCall function | tailCallIndirect table typeIndex =>
    obtain ⟨rfl, rfl⟩ := drawn
    exact ⟨0, rfl, rfl, by simp [targets]⟩
  | drop | select | selectKind kind | localTee place =>
    obtain ⟨rfl, _, _, _, code⟩ := drawn
    exact labelled_single code rfl (by simp [targets])
  | _ =>
    obtain ⟨rfl, code⟩ := drawn
    exact labelled_single code rfl (by simp [targets])

/-! ## Labels of a layout -/

namespace Layout

variable {source : Module} {type : FunctionType} {body : Body} {shapes : Nat → Option Shape}

/-- The labels in front of an index: some of the indices below it, and labels that are taken. -/
theorem labelsOf_before (typed : BodyTyped source type body shapes)
    (layout : Layout type body shapes) (inside : index ≤ body.instructions.size) :
    body.instructions.size ≤ layout.bases index ∧
      (∀ label ∈ labelsOf (layout.before index), label < index ∨
        body.instructions.size ≤ label ∧ label < layout.bases index) ∧
      (labelsOf (layout.before index)).Nodup := by
  induction index with
  | zero =>
    exact ⟨Nat.le_of_eq layout.start.symm, by simp [before, labelsOf], by simp [before, labelsOf]⟩
  | succ index ih =>
    obtain ⟨_, bounded, distinct⟩ := ih (by omega)
    obtain ⟨count, next, taken⟩ : ∃ count, layout.bases (index + 1) = layout.bases index + count ∧
        labelsOf (layout.pieces index) = range' (layout.bases index) count := by
      cases shaped : shapes index with
      | none =>
        have ⟨empty, same⟩ := layout.dead (by omega) shaped
        exact ⟨0, same, by rw [empty]; rfl⟩
      | some =>
        obtain ⟨_, found, fits⟩ := typed.fits shaped
        obtain ⟨count, next, taken, _⟩ := labelled_of_piece fits.flow (layout.live shaped found)
        exact ⟨count, next, taken⟩
    have own : ∀ label ∈ labelsOf (mark body index), label = index := by
      rcases labelsOf_mark body index with empty | one
      · simp [empty]
      · simp [one]
    have ownDistinct : (labelsOf (mark body index)).Nodup := by
      rcases labelsOf_mark body index with empty | one
      · simp [empty]
      · simp [one]
    rw [before_succ, part, labelsOf_append, labelsOf_append, taken, next]
    refine ⟨by omega, ?_, ?_⟩
    · intro label member
      simp only [mem_append, mem_range'_1] at member
      rcases member with earlier | here | stub
      · have := bounded label earlier
        omega
      · have := own label here
        omega
      · omega
    · rw [List.nodup_append, List.nodup_append]
      refine ⟨distinct, ⟨ownDistinct, List.nodup_range', ?_⟩, ?_⟩
      · intro label here other stub
        have := own label here
        have := mem_range'_1.mp stub
        omega
      · intro label earlier other later
        have := bounded label earlier
        rcases mem_append.mp later with here | stub
        · have := own other here
          omega
        · have := mem_range'_1.mp stub
          omega

theorem labelsOf_code (layout : Layout type body shapes) :
    labelsOf layout.code = labelsOf (layout.before body.instructions.size) := by
  rw [code, labelsOf_append]
  exact List.append_nil _

end Layout

end TwinEngine.Normal
