import TwinEngine.Body

/-!
Contract: what annotation finds about a list of operators.

Owns: the blocks that are open before each operator, the place where a block is closed, and the
instruction that annotation makes of each operator in these terms.

Does not own: whether the operators are well typed (`Proofs.Validation`).
-/

namespace TwinEngine

theorem lt_length {items : List α} (found : items[index]? = some item) : index < items.length :=
  (List.getElem?_eq_some_iff.mp found).1

theorem lt_size {items : Array α} (found : items[index]? = some item) : index < items.size :=
  (Array.getElem?_eq_some_iff.mp found).1

namespace BlockStructure

open List

/-! ## Open blocks -/

/-- The blocks that are open before the operator at an index, innermost first. -/
def openAt (ops : List Operator) : Nat → List OpenBlock
  | 0 => []
  | index + 1 =>
    match ops[index]? with
    | some op => opened (openAt ops index) index op
    | none => openAt ops index

theorem openAt_succ (found : ops[index]? = some op) :
    openAt ops (index + 1) = opened (openAt ops index) index op := by
  simp [openAt, found]

def pended (pending : List OpenExtent) (index : Nat) : Operator → List OpenExtent
  | .enter .. => ⟨index, none⟩ :: pending
  | .otherwise =>
    match pending with
    | block :: outer => { block with otherwise := some index } :: outer
    | [] => []
  | .finish => pending.tail
  | _ => pending

/-- The extents that are being found before the operator at an index, innermost first. -/
def pendingAt (ops : List Operator) : Nat → List OpenExtent
  | 0 => []
  | index + 1 =>
    match ops[index]? with
    | some op => pended (pendingAt ops index) index op
    | none => pendingAt ops index

theorem pendingAt_succ (found : ops[index]? = some op) :
    pendingAt ops (index + 1) = pended (pendingAt ops index) index op := by
  simp [pendingAt, found]

theorem map_opener_pended (pending : List OpenExtent) (blocks : List OpenBlock) (index : Nat)
    (op : Operator) (same : pending.map OpenExtent.opener = blocks.map OpenBlock.opener) :
    (pended pending index op).map OpenExtent.opener =
      (opened blocks index op).map OpenBlock.opener := by
  cases op with
  | enter => simp [pended, opened, same]
  | otherwise => cases pending <;> simpa [pended, opened] using same
  | finish => cases pending <;> cases blocks <;> simp_all [pended, opened]
  | _ => simpa [pended, opened] using same

theorem map_opener_pendingAt (ops : List Operator) (index : Nat) :
    (pendingAt ops index).map OpenExtent.opener = (openAt ops index).map OpenBlock.opener := by
  induction index with
  | zero => rfl
  | succ index ih =>
    cases found : ops[index]? with
    | none => simpa [pendingAt, openAt, found] using ih
    | some =>
      rw [pendingAt_succ found, openAt_succ found]
      exact map_opener_pended _ _ _ _ ih

/-- Openers become smaller from the innermost block outwards, and all stand before the index. -/
theorem openAt_descends (ops : List Operator) (index : Nat) :
    (index :: (openAt ops index).map OpenBlock.opener).Pairwise (· > ·) := by
  induction index with
  | zero => simp [openAt]
  | succ index ih =>
    have later : ((index + 1) :: (openAt ops index).map OpenBlock.opener).Pairwise
        (· > ·) := by
      rw [pairwise_cons] at ih ⊢
      refine ⟨fun opener member => ?_, ih.2⟩
      have := ih.1 opener member
      omega
    cases found : ops[index]? with
    | none => simpa [openAt, found] using later
    | some op =>
      rw [openAt_succ found]
      cases op with
      | enter =>
        simp only [opened, map_cons, pairwise_cons] at ih later ⊢
        refine ⟨fun opener member => ?_, ih⟩
        rcases mem_cons.mp member with _ | deeper
        · omega
        · exact later.1 opener deeper
      | finish =>
        refine List.Pairwise.sublist ?_ later
        simp only [opened, map_tail]
        exact (tail_sublist _).cons_cons _
      | _ => simpa [opened] using later

theorem openAt_form (member : block ∈ openAt ops index) :
    ∃ type, ops[block.opener]? = some (.enter block.form type) := by
  induction index with
  | zero => cases member
  | succ index ih =>
    cases found : ops[index]? with
    | none =>
      rw [openAt, found] at member
      exact ih member
    | some op =>
      rw [openAt_succ found] at member
      cases op with
      | enter form type =>
        rcases mem_cons.mp member with same | older
        · subst same
          exact ⟨type, found⟩
        · exact ih older
      | finish => exact ih (mem_of_mem_tail member)
      | _ => exact ih member

/-! ## Extents -/

/-- A block that is never looked at again keeps what was found about it. -/
theorem extents_of_closed (ops : List Operator) (index : Nat) (pending : List OpenExtent)
    (found : Array BlockExtent) (opener : Nat) (before : opener < index)
    (closed : ∀ block ∈ pending, block.opener ≠ opener) :
    (extents ops index pending found)[opener]? = found[opener]? := by
  induction ops generalizing index pending found with
  | nil =>
    simp only [extents]
    induction pending generalizing found with
    | nil => rfl
    | cons block outer ih =>
      rw [foldl_cons, ih _ fun other member => closed other (mem_cons_of_mem block member)]
      have different := closed block mem_cons_self
      simp [different]
  | cons op _ ih =>
    have outerClosed : ∀ block ∈ pending.tail, block.opener ≠ opener :=
      fun block member => closed block (mem_of_mem_tail member)
    cases op with
    | enter =>
      apply ih (index + 1) _ _ (by omega)
      exact forall_mem_cons.mpr ⟨Nat.ne_of_gt before, closed⟩
    | otherwise =>
      cases pending with
      | nil => simpa [extents] using ih (index + 1) [] found (by omega) closed
      | cons block outer =>
        apply ih (index + 1) _ _ (by omega)
        exact forall_mem_cons.mpr ⟨closed block mem_cons_self, outerClosed⟩
    | finish =>
      cases pending with
      | nil => simpa [extents] using ih (index + 1) [] found (by omega) closed
      | cons block outer =>
        simp only [extents]
        rw [ih (index + 1) outer _ (by omega) outerClosed]
        have different := closed block mem_cons_self
        simp [different]
    | _ => exact ih (index + 1) _ _ (by omega) closed

theorem extents_drop (ops : List Operator) (initial : Array BlockExtent) (index : Nat)
    (inside : index ≤ ops.length) : ∃ found : Array BlockExtent, found.size = initial.size ∧
      extents ops 0 [] initial = extents (ops.drop index) index (pendingAt ops index) found := by
  induction index with
  | zero => exact ⟨initial, rfl, rfl⟩
  | succ index ih =>
    obtain ⟨found, size, same⟩ := ih (by omega)
    have below : index < ops.length := by omega
    have here : ops[index]? = some ops[index] := getElem?_eq_getElem below
    rw [same, drop_eq_getElem_cons below, pendingAt_succ here]
    generalize ops[index] = op
    cases op with
    | otherwise =>
      cases pendingAt ops index with
      | nil | cons block outer => exact ⟨found, size, by simp [extents, pended]⟩
    | finish =>
      cases pendingAt ops index with
      | nil => exact ⟨found, size, by simp [extents, pended]⟩
      | cons block outer =>
        refine ⟨found.setIfInBounds block.opener ⟨block.otherwise, index⟩, ?_, ?_⟩
        · simpa using size
        · simp [extents, pended]
    | _ => exact ⟨found, size, by simp [extents, pended]⟩

/-- The block opened at `opener` is closed at `close`, and `second` is where its second arm starts,
if it has one. -/
def Closes (ops : List Operator) (opener : Nat) (second : Option Nat) (close : Nat) : Prop :=
  ops[close]? = some .finish ∧
    ∃ outer, pendingAt ops close = ⟨opener, second⟩ :: outer

theorem Closes.opener_lt (closes : Closes ops opener second close) : opener < close := by
  obtain ⟨_, _, pending⟩ := closes
  have descends := openAt_descends ops close
  rw [← map_opener_pendingAt, pending] at descends
  exact (pairwise_cons.mp descends).1 opener mem_cons_self

def contextOf (ops : List Operator) : Context :=
  ⟨extents ops 0 [] (Array.replicate ops.length ⟨none, 0⟩), ops.length - 1⟩

theorem extent_of_closes (closes : Closes ops opener second close) :
    (contextOf ops).extent opener = ⟨second, close⟩ := by
  have earlier := closes.opener_lt
  obtain ⟨here, outer, pending⟩ := closes
  obtain ⟨below, atClose⟩ := List.getElem?_eq_some_iff.mp here
  obtain ⟨found, size, same⟩ := extents_drop ops
    (Array.replicate ops.length ⟨none, 0⟩) close (by omega)
  have descends := openAt_descends ops close
  rw [← map_opener_pendingAt, pending] at descends
  have innermost := (pairwise_cons.mp (pairwise_cons.mp descends).2).1
  have kept := extents_of_closed (ops.drop (close + 1)) (close + 1) outer
    (found.setIfInBounds opener ⟨second, close⟩) opener (by omega) (fun block member =>
      Nat.ne_of_lt (innermost block.opener (mem_map_of_mem member)))
  have opensInside : opener < found.size := by
    rw [size, Array.size_replicate]
    omega
  have result : (extents ops 0 [] (Array.replicate ops.length ⟨none, 0⟩))[opener]? =
      some ⟨second, close⟩ := by
    rw [same, drop_eq_getElem_cons below, atClose, pending]
    simp only [extents]
    rw [kept]
    simp [opensInside]
  simp [contextOf, Context.extent, Array.getD_eq_getD_getElem?, result]

/-! ## Instructions -/

@[simp] theorem Context.annotate_operator (context : Context) (blocks : List OpenBlock)
    (index : Nat) (op : Operator) : (context.annotate blocks index op).operator = op := by
  unfold Context.annotate
  split <;> rfl

@[simp] theorem Context.annotate_depth (context : Context) (blocks : List OpenBlock)
    (index : Nat) (op : Operator) : (context.annotate blocks index op).depth = blocks.length := by
  unfold Context.annotate
  split <;> rfl

@[simp] theorem Context.annotate_scope (context : Context) (blocks : List OpenBlock)
    (index : Nat) (op : Operator) :
    (context.annotate blocks index op).scope = blocks.head?.map OpenBlock.opener := by
  unfold Context.annotate
  split <;> rfl

theorem annotateFrom_get (context : Context) (ops rest : List Operator) (index : Nat)
    (done : Array Instruction) (suffix : ops.drop index = rest) (size : done.size = index)
    (inside : index ≤ ops.length) (before : ∀ place < index, done[place]? =
      ops[place]?.map (context.annotate (openAt ops place) place)) (place : Nat) :
    (context.annotateFrom rest index (openAt ops index) done)[place]? =
      ops[place]?.map (context.annotate (openAt ops place) place) := by
  induction rest generalizing index done with
  | nil =>
    have full : index = ops.length := by
      have := drop_eq_nil_iff.mp suffix
      omega
    simp only [Context.annotateFrom]
    by_cases below : place < index
    · exact before place below
    · rw [Array.getElem?_eq_none (by omega), getElem?_eq_none (by omega)]
      rfl
  | cons op rest ih =>
    have below : index < ops.length := by
      apply Decidable.byContradiction
      intro _
      rw [drop_eq_nil_iff.mpr (by omega)] at suffix
      cases suffix
    rw [drop_eq_getElem_cons below] at suffix
    have here : ops[index]? = some op := by
      rw [getElem?_eq_getElem below, (List.cons.inj suffix).1]
    simp only [Context.annotateFrom]
    rw [← openAt_succ here]
    apply ih (index + 1) _ (List.cons.inj suffix).2 (by simp [size]) (by omega)
    intro place _
    by_cases earlier : place < index
    · rw [Array.getElem?_push, if_neg (by omega)]
      exact before place earlier
    · have same : place = index := by omega
      subst same
      rw [Array.getElem?_push, if_pos (by omega), here]
      rfl

theorem annotate_get (ops : List Operator) (index : Nat) : (annotate ops)[index]? =
      ops[index]?.map ((contextOf ops).annotate (openAt ops index) index) :=
  annotateFrom_get (contextOf ops) ops ops 0 _ rfl (by simp) (by omega)
    (fun _ below => absurd below (by omega)) index

theorem annotate_size (ops : List Operator) : (annotate ops).size = ops.length := by
  have inside : (annotate ops)[ops.length]? = none := by
    rw [annotate_get, getElem?_eq_none (Nat.le_refl _)]
    rfl
  have bound := Array.getElem?_eq_none_iff.mp inside
  rcases Nat.lt_or_eq_of_le bound with less | same
  · have lastHere := annotate_get ops (annotate ops).size
    rw [Array.getElem?_eq_none (Nat.le_refl _), getElem?_eq_getElem less] at lastHere
    cases lastHere
  · exact same

end BlockStructure

end TwinEngine
