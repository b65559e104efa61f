import TwinEngine.Proofs.BlockGrammar

/-!
Contract: annotation resolves structured control.

Owns: the blocks of a properly nested body in terms of its grammar, that the blocks open at an
operator are those around it, and where its branches lead.
-/

namespace TwinEngine.BlockStructure

open List Option

/-! ## Blocks -/

/-- A block: where it is opened, where its second arm is split off, and where it is closed. -/
structure BlockRange where
  opener : Nat
  form : BlockForm
  second : Option Nat
  close : Nat
deriving DecidableEq

/-- What a block can enclose, with the place of the `otherwise` that divides it. -/
inductive Encloses : BlockForm → List Operator → Option Nat → Prop
  | whole (form : BlockForm) {inner : List Operator} : Balanced inner → Encloses form inner none
  | divided {first second : List Operator} : Balanced first → Balanced second →
      Encloses .conditional (first ++ .otherwise :: second) (some first.length)

/-- The blocks of a list of operators. -/
inductive Spans : List Operator → BlockRange → Prop
  | mk (before after : List Operator) {form : BlockForm} (note : BlockType) {inner : List Operator}
      {second : Option Nat} : Encloses form inner second →
      Spans (before ++ .enter form note :: (inner ++ .finish :: after))
        ⟨before.length, form, second.map (before.length + 1 + ·), before.length + 1 + inner.length⟩

variable {ops : List Operator} {block : BlockRange} {index : Nat}

theorem Spans.opens (spans : Spans ops block) :
    ∃ note, ops[block.opener]? = some (.enter block.form note) := by
  obtain ⟨_, _, note, _⟩ := spans
  exact ⟨note, by simp⟩

theorem Encloses.pendingAfter_eq {inner : List Operator} (encloses : Encloses form inner second)
    (opener start : Nat) (outer : List OpenExtent) :
    pendingAfter (⟨opener, none⟩ :: outer) start inner =
      ⟨opener, second.map (start + ·)⟩ :: outer := by
  cases encloses with
  | whole form balanced => exact pendingAfter_balanced balanced _ _
  | divided first second =>
    rw [pendingAfter_append, pendingAfter_balanced first, pendingAfter, pendingAfter_balanced
      second]
    rfl

theorem Spans.closes (spans : Spans ops block) :
    Closes ops block.opener block.second block.close := by
  obtain @⟨before, after, form, note, inner, second, encloses⟩ := spans
  have here : (before ++ .enter form note :: (inner ++ .finish :: after))[before.length]? =
      some (.enter form note) := by simp
  have through := pendingAt_append (before ++ [.enter form note]) inner (.finish :: after)
  rw [length_append, length_singleton, append_assoc, append_assoc,
    singleton_append, pendingAt_succ here, pended, encloses.pendingAfter_eq] at through
  exact ⟨by simp [Nat.add_assoc, Nat.add_comm 1], _, through⟩

theorem Balanced.nest_eq {inner : List Operator} (balanced : Balanced inner) (block : Bool)
    (outer : List Bool) : inner.foldlM nest (block :: outer) = some (block :: outer) := by
  induction balanced generalizing block outer with
  | nil => rfl
  | flat flat _ ih => simpa [nest_flat flat] using ih block outer
  | block _ note _ _ inside behind => simp [inside, nest, behind]
  | divided note _ _ _ first second behind => simp [first, nest, second, behind]

theorem ProperlyNested.exists_spans (nested : ProperlyNested ops)
    (here : ops[index]? = some (.enter form note)) :
    ∃ block, Spans ops block ∧ block.opener = index := by
  have read : ops.foldlM nest [false] = some [] := by
    obtain ⟨inner, balanced, rfl⟩ := nested
    simp [balanced.nest_eq, nest]
  obtain ⟨below, same⟩ := List.getElem?_eq_some_iff.mp here
  have split := (take_append_drop index ops).symm
  rw [drop_eq_getElem_cons below, same] at split
  have length : (ops.take index).length = index := length_take_of_le (Nat.le_of_lt below)
  generalize ops.take index = before at split length
  generalize ops.drop (index + 1) = rest at split
  subst split length
  rw [foldlM_append] at read
  obtain ⟨blocks, _, read⟩ := bind_eq_some_iff.mp read
  cases blocks with
  | nil => cases read
  | cons block outer =>
    have opened : nest (block :: outer) (.enter form note) =
        some ((form == .conditional) :: block :: outer) := by cases block <;> rfl
    rw [foldlM_cons, opened] at read
    obtain ⟨inner, after, balanced, ⟨rfl, _⟩ | ⟨divisible, rfl, armRead⟩⟩ :=
      exists_balanced read (Nat.zero_le _)
    · exact ⟨_, .mk before after note (.whole form balanced), rfl⟩
    · obtain rfl : form = .conditional := by simpa using divisible
      obtain ⟨_, after, balanced', ⟨rfl, _⟩ | ⟨absurd, _⟩⟩ :=
        exists_balanced armRead (Nat.zero_le _)
      · have spans := Spans.mk before after note (.divided balanced balanced')
        exact ⟨_, by simpa using spans, rfl⟩
      · cases absurd

/-! ## Open blocks -/

def openers (ops : List Operator) (index : Nat) : List Nat :=
  (openAt ops index).map OpenBlock.opener

theorem openers_earlier (member : opener ∈ openers ops later) (before : opener < index)
    (below : index ≤ later) : opener ∈ openers ops index := by
  induction below with
  | refl => exact member
  | @step later below ih =>
    refine ih ?_
    unfold openers at member ⊢
    cases found : ops[later]? with
    | none => simpa [openAt, found] using member
    | some op =>
      rw [openAt_succ found] at member
      cases op with
      | enter =>
        rcases mem_cons.mp member with same | older
        · exact absurd before (same ▸ Nat.not_lt_of_le below)
        · exact older
      | finish => exact mem_of_mem_tail (map_tail ▸ member)
      | _ => exact member

/-- A block is open between its opener and its close, the latter included. -/
theorem Closes.mem_openers_iff (closes : Closes ops opener second close) :
    opener ∈ openers ops index ↔ opener < index ∧ index ≤ close := by
  have earlier := closes.opener_lt
  obtain ⟨here, outer, pending⟩ := closes
  have atClose : openers ops close = opener :: outer.map OpenExtent.opener := by
    rw [openers, ← map_opener_pendingAt, pending, map_cons]
  constructor
  · intro member
    have below := (pairwise_cons.mp (openAt_descends ops index)).1 opener member
    refine ⟨below, Nat.le_of_not_lt fun beyond => ?_⟩
    have after := openers_earlier member (Nat.lt_succ_of_lt earlier) (Nat.succ_le_of_lt beyond)
    have descends := (pairwise_cons.mp (openAt_descends ops close)).2
    rw [← openers, atClose, pairwise_cons] at descends
    rw [openers, openAt_succ here, opened, map_tail, ← openers, atClose, tail_cons] at after
    exact Nat.lt_irrefl _ (descends.1 opener after)
  · rintro ⟨below, inside⟩
    exact openers_earlier (atClose ▸ mem_cons_self) below inside

/-- The blocks around the operator at an index, innermost first. -/
def blocksAt (ops : List Operator) (index : Nat) : List BlockRange :=
  (openAt ops index).map fun block =>
    let extent := (contextOf ops).extent block.opener
    ⟨block.opener, block.form, extent.otherwise, extent.finish⟩

theorem map_opener_blocksAt (ops : List Operator) (index : Nat) :
    (blocksAt ops index).map BlockRange.opener = openers ops index := by
  simp [blocksAt, openers]

/-- The blocks that annotation has open are those of the grammar around the operator. -/
theorem mem_blocksAt (nested : ProperlyNested ops) : block ∈ blocksAt ops index ↔
      Spans ops block ∧ block.opener < index ∧ index ≤ block.close := by
  have same : ∀ {spanned open_}, Spans ops spanned →
      open_ ∈ openAt ops index → spanned.opener = open_.opener →
      (⟨open_.opener, open_.form, ((contextOf ops).extent open_.opener).otherwise,
        ((contextOf ops).extent open_.opener).finish⟩ : BlockRange) = spanned := by
    intro spanned open_ spans member opener
    obtain ⟨note, opens⟩ := spans.opens
    obtain ⟨_, here⟩ := openAt_form member
    rw [← opener, opens, some.injEq, Operator.enter.injEq] at here
    rw [← opener, ← here.1, extent_of_closes spans.closes]
  constructor
  · intro member
    obtain ⟨open_, listed, rfl⟩ := mem_map.mp member
    obtain ⟨note, here⟩ := openAt_form listed
    obtain ⟨spanned, spans, opener⟩ := nested.exists_spans here
    rw [same spans listed opener]
    exact ⟨spans, spans.closes.mem_openers_iff.mp (opener ▸ mem_map_of_mem listed)⟩
  · rintro ⟨spans, around⟩
    obtain ⟨open_, listed, opener⟩ := mem_map.mp (spans.closes.mem_openers_iff.mpr around)
    exact mem_map.mpr ⟨open_, listed, same spans listed opener.symm⟩

/-! ## Branches -/

/-- A branch to a loop goes back to its opener, a branch to another block to its close. -/
def BlockRange.target (block : BlockRange) : Nat :=
  if block.form = .loop then block.opener else block.close

/-- Where a branch past a number of blocks leads, which is the end of the body past all of them. -/
def destination (ops : List Operator) (blocks : List BlockRange) (depth : Nat) : Nat :=
  ((blocks[depth]?).map BlockRange.target).getD (ops.length - 1)

theorem target_eq_destination (depth : Nat) : (contextOf ops).target (openAt ops index) depth =
      destination ops (blocksAt ops index) depth := by
  unfold Context.target destination blocksAt
  rw [getElem?_map]
  cases (openAt ops index)[depth]? with
  | none => rfl
  | some block =>
    obtain ⟨_, form⟩ := block
    cases form <;> rfl

theorem Spans.close_lt (nested : ProperlyNested ops) (spans : Spans ops block) :
    block.close < ops.length - 1 := by
  have closes := spans.closes
  obtain ⟨inner, balanced, rfl⟩ := nested
  have inside := lt_length closes.1
  rw [length_append, length_singleton] at inside ⊢
  refine Nat.lt_of_le_of_ne (by omega) fun _ => ?_
  have member : block.opener ∈ openers (inner ++ [.finish]) block.close :=
    closes.mem_openers_iff.mpr ⟨closes.opener_lt, Nat.le_refl _⟩
  rw [openers, show block.close = inner.length by omega, openAt_balanced balanced] at member
  cases member

/-- Of two blocks around an operator the inner one is closed first. -/
theorem Spans.close_lt_close (spans : Spans ops block) (outerSpans : Spans ops outer)
    (deeper : outer.opener < block.opener) (inside : block.opener < outer.close) :
    block.close < outer.close := by
  refine Nat.lt_of_not_le fun beyond => ?_
  have member := spans.closes.mem_openers_iff.mpr ⟨inside, beyond⟩
  obtain ⟨_, _, pending⟩ := outerSpans.closes
  have descends := (pairwise_cons.mp (openAt_descends ops outer.close)).2
  rw [openers, ← map_opener_pendingAt, pending] at member
  rw [← map_opener_pendingAt, pending] at descends
  rcases mem_cons.mp member with same | older
  · exact Nat.ne_of_gt deeper same
  · exact Nat.lt_asymm deeper ((pairwise_cons.mp descends).1 _ older)

/-- What annotation says about the operator at an index, in terms of the blocks around it. -/
structure Resolved (ops : List Operator) (index : Nat) (instr : Instruction)
    (blocks : List BlockRange) : Prop where
  enclosing : ∀ block, block ∈ blocks ↔
    Spans ops block ∧ block.opener < index ∧ index ≤ block.close
  inward : (blocks.map BlockRange.opener).Pairwise (· > ·)
  depth : instr.depth = blocks.length
  scope : instr.scope = blocks.head?.map BlockRange.opener
  branch : ∀ depth, instr.operator = .branch depth →
    instr.labelTrue = some (destination ops blocks depth)
  branchIf : ∀ depth, instr.operator = .branchIf depth →
    instr.labelTrue = some (destination ops blocks depth)
  branchTable : ∀ depths fallback, instr.operator = .branchTable depths fallback →
    instr.labelTable = (depths ++ [fallback]).map (destination ops blocks)
  conditional : ∀ note, instr.operator = .enter .conditional note →
    ∃ block, Spans ops block ∧ block.opener = index ∧
      instr.labelTrue = some block.close ∧
      instr.labelFalse = some ((block.second.map (· + 1)).getD block.close)
  distinct : ∀ inner outer, inner < outer → outer ≤ blocks.length →
    destination ops blocks inner ≠ destination ops blocks outer
  forward : instr.operator ≠ .finish → ∀ depth,
    index < destination ops blocks depth ↔
      ∀ note, ops[destination ops blocks depth]? ≠ some (.enter .loop note)

theorem destination_distinct {inner outer : Nat} (nested : ProperlyNested ops)
    (deeper : inner < outer) (few : outer ≤ (blocksAt ops index).length) :
    destination ops (blocksAt ops index) inner ≠ destination ops (blocksAt ops index) outer := by
  have inside : inner < (blocksAt ops index).length := by omega
  have descends := (pairwise_cons.mp (openAt_descends ops index)).2
  rw [← openers, ← map_opener_blocksAt] at descends
  obtain ⟨spans, _⟩ := (mem_blocksAt nested).mp (getElem_mem inside)
  have ends := spans.close_lt nested
  unfold destination
  rw [getElem?_eq_getElem inside, map_some, getD_some, BlockRange.target]
  rcases Nat.lt_or_eq_of_le few with listed | rfl
  · obtain ⟨outerSpans, _⟩ :=
      (mem_blocksAt nested).mp (getElem_mem listed)
    have order := pairwise_iff_getElem.mp descends inner outer (by simpa) (by simpa) deeper
    simp only [getElem_map] at order
    have nestedClose := spans.close_lt_close outerSpans order (by omega)
    rw [getElem?_eq_getElem listed, map_some, getD_some, BlockRange.target]
    split <;> split <;> omega
  · rw [getElem?_eq_none (Nat.le_refl _), map_none, getD_none]
    split <;> omega

theorem destination_forward (nested : ProperlyNested ops)
    (here : ops[index]? = some op) (other : op ≠ .finish) (depth : Nat) :
    index < destination ops (blocksAt ops index) depth ↔
      ∀ note, ops[destination ops (blocksAt ops index) depth]? ≠ some (.enter .loop note) := by
  have ahead : ∀ {close}, ops[close]? = some .finish → index ≤ close →
      (index < close ↔ ∀ note, ops[close]? ≠ some (.enter .loop note)) := by
    intro close finish below
    refine iff_of_true (Nat.lt_of_le_of_ne below ?_) fun note absurd => ?_
    · rintro rfl
      exact other (some.inj (here.symm.trans finish))
    · cases finish.symm.trans absurd
  unfold destination
  cases found : (blocksAt ops index)[depth]? with
  | none =>
    have last := nested.getLast?
    rw [getLast?_eq_getElem?] at last
    exact ahead last (Nat.le_sub_one_of_lt (lt_length here))
  | some =>
    obtain ⟨spans, opens, closes⟩ := (mem_blocksAt nested).mp (mem_of_getElem? found)
    rw [map_some, getD_some, BlockRange.target]
    split
    · rename_i loop
      obtain ⟨note, opener⟩ := spans.opens
      rw [loop] at opener
      exact iff_of_false (by omega) fun never => never note opener
    · exact ahead spans.closes.1 closes

/-- Annotation resolves structured control: depth and scope are those of the blocks around an
operator, branches lead to loop openers and block ends, and an `if` to the end of its block and to
its second arm. Different blocks have different targets, and only loops lie behind. -/
theorem annotate_resolves (nested : ProperlyNested ops) {op : Operator}
    (here : ops[index]? = some op) :
    ∃ instr blocks, (annotate ops)[index]? = some instr ∧
      instr.operator = op ∧ Resolved ops index instr blocks := by
  refine ⟨_, blocksAt ops index, by rw [annotate_get, here]; rfl, by simp, ?_⟩
  constructor
  case enclosing => exact fun block => mem_blocksAt nested
  case inward =>
    rw [map_opener_blocksAt]
    exact (pairwise_cons.mp (openAt_descends ops index)).2
  case depth => simp [blocksAt]
  case scope => simp [blocksAt, Function.comp_def]
  case branch | branchIf =>
    intro depth same
    rw [Context.annotate_operator] at same
    rw [same, ← target_eq_destination]
    rfl
  case branchTable =>
    intro depths fallback same
    rw [Context.annotate_operator] at same
    rw [same, ← funext target_eq_destination]
    rfl
  case conditional =>
    intro note same
    rw [Context.annotate_operator] at same
    obtain ⟨block, spans, rfl⟩ := nested.exists_spans (same ▸ here)
    refine ⟨block, spans, rfl, ?_⟩
    rw [same, Context.annotate, extent_of_closes spans.closes]
    exact ⟨rfl, rfl⟩
  case distinct => exact fun inner outer => destination_distinct nested
  case forward =>
    intro other
    rw [Context.annotate_operator] at other
    exact destination_forward nested here other

/-- An `if` with both arms in a loop in a block, with branches to all three and past them. -/
def nestedOperators : List Operator :=
  [.enter .block .empty, .enter .loop .empty, .enter .conditional .empty, .branchIf 1, .otherwise,
    .enter .conditional .empty, .finish, .branchTable [0, 1] 3, .finish, .finish, .finish, .finish]

theorem annotate_resolves_nested :
    ProperlyNested nestedOperators ∧
      ∃ instr blocks, (annotate nestedOperators)[7]? = some instr ∧
        Resolved nestedOperators 7 instr blocks ∧ instr.labelTable = [8, 1, 11] := by
  have nested : ProperlyNested nestedOperators := properlyNested_of_nest (by decide)
  obtain ⟨instr, blocks, found, _, resolved⟩ :=
    annotate_resolves nested (show nestedOperators[7]? = some _ from rfl)
  refine ⟨nested, instr, blocks, found, resolved, ?_⟩
  have table : (annotate nestedOperators)[7]?.map Instruction.labelTable = some [8, 1, 11] := by
    decide
  rw [found] at table
  exact some.inj table

end TwinEngine.BlockStructure
