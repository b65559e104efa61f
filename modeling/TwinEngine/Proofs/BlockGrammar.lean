import TwinEngine.Proofs.BlockStructure

/-!
Contract: properly nested operators.

Owns: the grammar of nested blocks, a recognizer that reads operators one at a time, that what the
recognizer accepts is derived by the grammar, and that annotation keeps its targets inside a body
that ends with `finish`.

Does not own: whether the operators are well typed (`Proofs.Validation`).
-/

namespace TwinEngine.BlockStructure

open Option
open List (append_nil cons_append length_cons mem_cons nil_append not_mem_nil)

/-! ## The grammar -/

/-- Whether an operator neither opens nor divides nor closes a block. -/
def isFlat : Operator → Bool
  | .enter .. | .otherwise | .finish => false
  | _ => true

/-- Operators that close every block that they open. A conditional may be divided into two arms. -/
inductive Balanced : List Operator → Prop
  | nil : Balanced []
  | flat {op : Operator} {rest : List Operator} :
      isFlat op = true → Balanced rest → Balanced (op :: rest)
  | block (form : BlockForm) (note : BlockType) {inner rest : List Operator} :
      Balanced inner → Balanced rest → Balanced (.enter form note :: (inner ++ .finish :: rest))
  | divided (note : BlockType) {first second rest : List Operator} :
      Balanced first → Balanced second → Balanced rest →
      Balanced (.enter .conditional note :: (first ++ .otherwise :: (second ++ .finish :: rest)))

/-- The operators of a whole body: balanced ones, and the `finish` of the body behind them. -/
def ProperlyNested (ops : List Operator) : Prop :=
  ∃ inner, Balanced inner ∧ ops = inner ++ [.finish]

/-! ## The recognizer -/

/-- The open blocks after an operator, innermost first, each with whether it may still be divided.
Nothing can follow once no block is open. -/
def nest : List Bool → Operator → Option (List Bool)
  | [], _ => none
  | _ :: outer, .finish => some outer
  | true :: outer, .otherwise => some (false :: outer)
  | false :: _, .otherwise => none
  | blocks, .enter form _ => some ((form == .conditional) :: blocks)
  | blocks, _ => some blocks

theorem nest_flat (flat : isFlat op = true) (block : Bool) (outer : List Bool) :
    nest (block :: outer) op = some (block :: outer) := by
  cases op <;> first | rfl | cases flat

theorem exists_balanced (read : ops.foldlM nest (block :: outer) = some final)
    (closed : final.length ≤ outer.length) : ∃ inner rest, Balanced inner ∧
      (ops = inner ++ .finish :: rest ∧ rest.foldlM nest outer = some final ∨
        block = true ∧ ops = inner ++ .otherwise :: rest ∧
          rest.foldlM nest (false :: outer) = some final) := by
  -- The rest behind an inner block is shorter, but not the tail of the operators.
  induction size : ops.length using Nat.strongRecOn generalizing ops block outer with
  | ind size ih =>
  subst size
  cases ops with
  | nil =>
    obtain rfl : block :: outer = final := by simpa using read
    rw [length_cons] at closed
    omega
  | cons op rest =>
    obtain ⟨next, first, read⟩ := bind_eq_some_iff.mp read
    cases flat : isFlat op with
    | true =>
      rw [nest_flat flat] at first
      cases first
      obtain ⟨inner, tail, balanced, ends⟩ := ih _ (by simp) read closed rfl
      refine ⟨op :: inner, tail, .flat flat balanced, ?_⟩
      rcases ends with ⟨rfl, after⟩ | ⟨divisible, rfl, after⟩
      · exact .inl ⟨rfl, after⟩
      · exact .inr ⟨divisible, rfl, after⟩
    | false =>
      cases op with
      | finish =>
        cases first
        exact ⟨[], rest, .nil, .inl ⟨rfl, read⟩⟩
      | otherwise =>
        cases block with
        | false => cases first
        | true =>
          cases first
          exact ⟨[], rest, .nil, .inr ⟨rfl, rfl, read⟩⟩
      | enter form note =>
        have opened : next = (form == .conditional) :: block :: outer := by
          cases block <;> exact (some.inj first).symm
        subst opened
        obtain ⟨inner, tail, balanced, ends⟩ := ih _ (by simp) read (by simp; omega) rfl
        rcases ends with ⟨rfl, after⟩ | ⟨divisible, rfl, after⟩
        · obtain ⟨behind, last, behindBalanced, lastEnds⟩ :=
            ih _ (by simp; omega) after closed rfl
          refine ⟨_, last, .block form note balanced behindBalanced, ?_⟩
          rcases lastEnds with ⟨rfl, done⟩ | ⟨divisible, rfl, done⟩
          · exact .inl ⟨by simp, done⟩
          · exact .inr ⟨divisible, by simp, done⟩
        · -- The second arm cannot be divided again, so it ends with the block.
          obtain rfl : form = .conditional := by simpa using divisible
          obtain ⟨second, behind, secondBalanced, secondEnds⟩ :=
            ih _ (by simp; omega) after (by simp; omega) rfl
          rcases secondEnds with ⟨rfl, done⟩ | ⟨absurd, _⟩
          · obtain ⟨_, last, lastBalanced, lastEnds⟩ :=
              ih _ (by simp; omega) done closed rfl
            refine ⟨_, last, .divided note balanced secondBalanced lastBalanced, ?_⟩
            rcases lastEnds with ⟨rfl, ended⟩ | ⟨divisible, rfl, ended⟩
            · exact .inl ⟨by simp, ended⟩
            · exact .inr ⟨divisible, by simp, ended⟩
          · cases absurd
      | _ => cases flat

/-- Operators that the recognizer reads from an open body to its end are properly nested. -/
theorem properlyNested_of_nest (read : ops.foldlM nest [false] = some []) : ProperlyNested ops := by
  obtain ⟨inner, rest, balanced, ⟨rfl, after⟩ | ⟨absurd, _⟩⟩ := exists_balanced read (Nat.zero_le _)
  · cases rest with
    | nil => exact ⟨inner, balanced, rfl⟩
    | cons _ rest => cases after
  · cases absurd

theorem ProperlyNested.getLast? (nested : ProperlyNested ops) : ops.getLast? = some .finish := by
  obtain ⟨_, _, rfl⟩ := nested
  simp

/-! ## Open blocks -/

def pendingAfter (pending : List OpenExtent) (index : Nat) : List Operator → List OpenExtent
  | [] => pending
  | op :: rest => pendingAfter (pended pending index op) (index + 1) rest

theorem pendingAfter_append (pending : List OpenExtent) (index : Nat)
    (first second : List Operator) : pendingAfter pending index (first ++ second) =
      pendingAfter (pendingAfter pending index first) (index + first.length) second := by
  induction first generalizing pending index with
  | nil => rfl
  | cons _ _ ih =>
    rw [cons_append, pendingAfter, ih, pendingAfter, length_cons,
      Nat.add_right_comm, Nat.add_assoc]

theorem pendingAt_append (before inner after : List Operator) :
    pendingAt (before ++ inner ++ after) (before.length + inner.length) =
      pendingAfter (pendingAt (before ++ inner ++ after) before.length) before.length inner := by
  induction inner generalizing before with
  | nil => rfl
  | cons op rest ih =>
    have here : (before ++ op :: rest ++ after)[before.length]? = some op := by simp
    have next := ih (before ++ [op])
    rw [List.length_append, List.length_singleton, List.append_assoc before, List.singleton_append,
      pendingAt_succ here] at next
    rw [pendingAfter, ← next, length_cons, Nat.add_right_comm, Nat.add_assoc]

variable {inner ops : List Operator}

theorem pendingAfter_balanced (balanced : Balanced inner) (pending : List OpenExtent) (index : Nat)
    : pendingAfter pending index inner = pending := by
  induction balanced generalizing pending index with
  | nil => rfl
  | @flat op rest flat _ ih =>
    rw [pendingAfter, ih]
    cases op <;> first | rfl | cases flat
  | block _ note _ _ insideKept restKept =>
    rw [pendingAfter, pendingAfter_append, insideKept, pendingAfter, restKept]
    rfl
  | divided note _ _ _ firstKept secondKept restKept =>
    rw [pendingAfter, pendingAfter_append, firstKept, pendingAfter, pendingAfter_append, secondKept,
      pendingAfter, restKept]
    rfl

/-- No block is open where the body itself is closed. -/
theorem openAt_balanced (balanced : Balanced inner) :
    openAt (inner ++ [.finish]) inner.length = [] := by
  have through := pendingAt_append [] inner [.finish]
  rw [pendingAfter_balanced balanced, nil_append, List.length_nil, Nat.zero_add] at through
  have openers := map_opener_pendingAt (inner ++ [.finish]) inner.length
  rw [through] at openers
  exact List.map_eq_nil_iff.mp openers.symm

/-- The last instruction of a properly nested body closes the body itself. -/
theorem ProperlyNested.back? (nested : ProperlyNested ops) :
    ∃ last, (annotate ops).back? = some last ∧ last.operator = .finish ∧ last.depth = 0 ∧
      last.scope = none := by
  obtain ⟨inner, balanced, rfl⟩ := nested
  have last := annotate_get (inner ++ [.finish]) inner.length
  rw [List.getElem?_concat_length, map_some, openAt_balanced balanced] at last
  have closing : (annotate (inner ++ [.finish])).back? =
      some ((contextOf (inner ++ [.finish])).annotate [] inner.length .finish) := by
    rw [Array.back?_eq_getElem?, annotate_size, List.length_append, List.length_singleton,
      Nat.add_sub_cancel, last]
  exact ⟨_, closing, by simp, by simp, by simp⟩

theorem map_operator_annotate (ops : List Operator) :
    (annotate ops).toList.map Instruction.operator = ops := by
  apply List.ext_getElem?
  intro index
  rw [List.getElem?_map, Array.getElem?_toList, annotate_get]
  cases ops[index]? with
  | none => rfl
  | some op => simp

/-! ## Targets -/

/-- An extent ends inside a body of a length, and an operator follows the one that divides it. -/
def BlockExtent.Inside (length : Nat) (extent : BlockExtent) : Prop :=
  extent.finish < length ∧ ∀ second, extent.otherwise = some second → second + 1 < length

theorem inside_extents (ends : index + ops.length = length)
    (last : ops = [] ∨ ops.getLast? = some .finish) (nonempty : 0 < length)
    (divided : ∀ block ∈ pending, ∀ second, block.otherwise = some second →
      second + 1 < length) (inside : ∀ extent ∈ found, BlockExtent.Inside length extent) :
    ∀ extent ∈ extents ops index pending found, BlockExtent.Inside length extent := by
  have setInside : ∀ {found : Array BlockExtent} {block : OpenExtent} {finish : Nat},
      (∀ extent ∈ found, BlockExtent.Inside length extent) →
      (∀ second, block.otherwise = some second → second + 1 < length) → finish < length →
      ∀ extent ∈ found.setIfInBounds block.opener ⟨block.otherwise, finish⟩,
        BlockExtent.Inside length extent := by
    intro found block finish inside divided below extent member
    rcases Array.mem_or_eq_of_mem_setIfInBounds member with old | rfl
    · exact inside extent old
    · exact ⟨below, divided⟩
  induction ops generalizing index pending found with
  | nil =>
    induction pending generalizing found with
    | nil => exact inside
    | cons block outer ih =>
      exact ih
        (fun other member => divided other (List.mem_cons_of_mem block member))
        (setInside inside (divided block List.mem_cons_self) nonempty)
  | cons op rest ih =>
    have ended : (op :: rest).getLast? = some .finish := by
      rcases last with absurd | ended
      · cases absurd
      · exact ended
    have restLast : rest = [] ∨ rest.getLast? = some .finish := by
      cases rest with
      | nil => exact .inl rfl
      | cons _ rest => exact .inr (by rwa [List.getLast?_cons_cons] at ended)
    have restEnds : index + 1 + rest.length = length := by
      rw [length_cons] at ends
      omega
    have outerDivided : ∀ block ∈ pending.tail, ∀ second,
        block.otherwise = some second → second + 1 < length :=
      fun block member => divided block (List.mem_of_mem_tail member)
    cases op with
    | enter =>
      refine ih restEnds restLast (fun block member => ?_) inside
      rcases mem_cons.mp member with rfl | outer
      · exact fun _ absurd => by cases absurd
      · exact divided block outer
    | otherwise =>
      cases pending with
      | nil => exact ih restEnds restLast divided inside
      | cons block outer =>
        refine ih restEnds restLast (fun other member => ?_) inside
        rcases mem_cons.mp member with rfl | deeper
        · intro second here
          cases here
          cases rest with
          | nil => cases ended
          | cons => simp at restEnds; omega
        · exact outerDivided other deeper
    | finish =>
      cases pending with
      | nil => exact ih restEnds restLast divided inside
      | cons block outer =>
        exact ih restEnds restLast outerDivided
          (setInside inside (divided block List.mem_cons_self) (by omega))
    | _ => exact ih restEnds restLast divided inside

variable (last : ops.getLast? = some .finish)

include last

theorem inside_extent (opener : Nat) :
    BlockExtent.Inside ops.length ((contextOf ops).extent opener) := by
  have length : 0 < ops.length := by
    cases ops with
    | nil => cases last
    | cons => simp
  have empty : BlockExtent.Inside ops.length ⟨none, 0⟩ :=
    ⟨length, fun _ absurd => by cases absurd⟩
  have all : ∀ extent ∈ (contextOf ops).extents,
      BlockExtent.Inside ops.length extent := by
    refine inside_extents (Nat.zero_add _) (.inr last) length
      (fun _ member => absurd member not_mem_nil) (fun extent member => ?_)
    obtain ⟨_, rfl⟩ := Array.mem_replicate.mp member
    exact empty
  unfold Context.extent
  rw [Array.getD_eq_getD_getElem?]
  cases found : (contextOf ops).extents[opener]? with
  | none => exact empty
  | some extent => exact all extent (Array.mem_of_getElem? found)

theorem succ_lt_of_ne_finish (here : ops[index]? = some op)
    (different : op ≠ .finish) : index + 1 < ops.length := by
  obtain ⟨below, _⟩ := List.getElem?_eq_some_iff.mp here
  rcases Nat.lt_or_eq_of_le (Nat.succ_le_of_lt below) with less | final
  · exact less
  · rw [List.getLast?_eq_getElem?, ← final, Nat.succ_sub_one, here] at last
    exact absurd (some.inj last) different

theorem target_lt (below : index < ops.length) (depth : Nat) :
    (contextOf ops).target (openAt ops index) depth < ops.length := by
  unfold Context.target
  split
  · show ops.length - 1 < ops.length
    omega
  · rename_i block found
    split
    · have descends := (List.pairwise_cons.mp (openAt_descends ops index)).1
      have := descends block.opener (List.mem_map_of_mem (List.mem_of_getElem? found))
      omega
    · exact (inside_extent last _).1
    · exact (inside_extent last _).1

/-- In a body that ends with `finish`, every target is the index of an instruction. -/
theorem label_lt (member : instr ∈ annotate ops) (listed : label ∈ instr.labels) :
    label < (annotate ops).size := by
  obtain ⟨index, below, rfl⟩ := Array.mem_iff_getElem.mp member
  have here := Array.getElem?_eq_getElem below
  rw [annotate_size] at below ⊢
  rw [annotate_get] at here
  obtain ⟨op, operatorHere, same⟩ := map_eq_some_iff.mp here
  rw [← same] at listed
  have extents := inside_extent last
  have targets := target_lt last below
  cases op with
  | enter form =>
    cases form with
    | conditional =>
      simp only [Context.annotate, Instruction.labels, toList_some, append_nil,
        cons_append, nil_append, mem_cons, not_mem_nil, or_false] at listed
      rcases listed with rfl | rfl
      · exact (extents index).1
      · cases second : ((contextOf ops).extent index).otherwise with
        | none => exact (extents index).1
        | some start => exact (extents index).2 start second
    | block | loop => simp [Context.annotate, Instruction.labels] at listed
  | otherwise =>
    simp only [Context.annotate, Instruction.labels, append_nil, toList_none,
      mem_toList, map_eq_some_iff, Option.map_map] at listed
    obtain ⟨block, _, rfl⟩ := listed
    exact (extents block.opener).1
  | branch depth =>
    simp only [Context.annotate, Instruction.labels, toList_some, toList_none,
      append_nil, List.mem_singleton] at listed
    exact listed ▸ targets depth
  | branchIf depth =>
    simp only [Context.annotate, Instruction.labels, toList_some, append_nil,
      cons_append, nil_append, mem_cons, not_mem_nil, or_false] at listed
    rcases listed with rfl | rfl
    · exact targets depth
    · exact succ_lt_of_ne_finish last operatorHere (by simp)
  | branchTable =>
    simp only [Context.annotate, Instruction.labels, toList_none, nil_append,
      List.mem_map] at listed
    obtain ⟨depth, _, rfl⟩ := listed
    exact targets depth
  | _ => simp [Context.annotate, Instruction.labels] at listed

end TwinEngine.BlockStructure
