import TwinEngine.Proofs.Normal.Labels

/-!
Contract: code drawn from a typed body is typed itself, and its labels are in order.

Owns: the kinds in front of each normalized instruction, what an instruction asks of them, and the
labels that code defines.

Does not own: that the analysis draws code (`Proofs.Normal.Analysis`).
-/

namespace TwinEngine.Normal

open Typing Option
open List (mem_cons_self mem_singleton mem_append mem_map getElem?_map length_map cons mem_flatMap
    mem_range)

variable {index target offset : Nat} {instr : Normalized} {piece : List Normalized}
  {stack : List ValueKind} {shape : Shape} {blocks : List Block}
  {run : List (List ValueKind × Normalized)} {lands : Nat → List ValueKind → Prop}
  {exit : List ValueKind → Prop}

/-! ## Typed code -/

section

variable (source : Module) (type : FunctionType) (locals : List ValueKind)

/-- What an instruction asks of the kinds in front of it, the last one first: control goes on behind
it with kinds of which `next` holds, and at a label with kinds of which `lands` holds. -/
def CodeFlow (lands : Nat → List ValueKind → Prop) (next : List ValueKind → Prop)
    (stack : List ValueKind) : Normalized → Prop
  | .label _ => next stack
  | .goto target => lands target stack
  | .ifZero target | .ifNonzero target =>
    ∃ rest, stack = .i32 :: rest ∧ lands target rest ∧ next rest
  | .switch targets =>
    targets ≠ [] ∧ ∃ rest, stack = .i32 :: rest ∧ ∀ target ∈ targets, lands target rest
  | .dropKeep drop keep =>
    ∃ rest, stack = keep.reverse ++ (drop.reverse ++ rest) ∧ next (keep.reverse ++ rest)
  | .leave kinds => kinds = type.results ∧ ∃ rest, stack = kinds.reverse ++ rest
  | .trap => True
  | .drop kind => ∃ rest, stack = kind :: rest ∧ next rest
  | .select kind => ∃ rest, stack = .i32 :: kind :: kind :: rest ∧ next (kind :: rest)
  | .localTee index kind => locals[index]? = some kind ∧ ∃ rest, stack = kind :: rest ∧ next stack
  | .call function =>
    ∃ callee rest, source.functionType function = some callee ∧
      stack = callee.params.reverse ++ rest ∧ next (callee.results.reverse ++ rest)
  | .callIndirect typeIndex table =>
    ∃ callee kind rest, source.types[typeIndex]? = some callee ∧
      source.tables[table]? = some kind ∧ kind.element = .funcRef ∧
      stack = .i32 :: (callee.params.reverse ++ rest) ∧ next (callee.results.reverse ++ rest)
  | .operator operator =>
    isSimple operator = true ∧ ∃ params results rest,
      Validation.Effect source locals params results operator ∧
        stack = params.reverse ++ rest ∧ next (results.reverse ++ rest)

/-- Code is typed by the kinds in front of its instructions. -/
structure CodeTyped (code : List Normalized) (kinds : Nat → Option (List ValueKind)) : Prop where
  start : kinds 0 = some []
  flow : ∀ {place : Nat} {stack : List ValueKind}, kinds place = some stack →
    ∃ instr, code[place]? = some instr ∧
      CodeFlow source type locals
        (fun label stack => ∃ target, code[target]? = some (.label label) ∧
          kinds target = some stack)
        (fun stack => kinds (place + 1) = some stack) stack instr

variable {source type locals}

theorem CodeFlow.mono (flow : CodeFlow source type locals lands next stack instr)
    (landsAlso : ∀ label stack, label ∈ instr.targets → lands label stack → lands' label stack)
    (nextAlso : ∀ stack, next stack → next' stack) :
    CodeFlow source type locals lands' next' stack instr := by
  cases instr with
  | label => exact nextAlso _ flow
  | goto target => exact landsAlso _ _ mem_cons_self flow
  | ifZero target | ifNonzero target =>
    obtain ⟨rest, kinds, there, on⟩ := flow
    exact ⟨rest, kinds, landsAlso _ _ mem_cons_self there, nextAlso _ on⟩
  | switch targets =>
    obtain ⟨nonempty, rest, kinds, there⟩ := flow
    exact ⟨nonempty, rest, kinds, fun target member => landsAlso _ _ member (there target member)⟩
  | dropKeep drop keep | drop kind | select kind =>
    obtain ⟨rest, kinds, on⟩ := flow
    exact ⟨rest, kinds, nextAlso _ on⟩
  | leave | trap => exact flow
  | localTee _ kind =>
    obtain ⟨found, rest, kinds, on⟩ := flow
    exact ⟨found, rest, kinds, nextAlso _ on⟩
  | call =>
    obtain ⟨callee, rest, found, kinds, on⟩ := flow
    exact ⟨callee, rest, found, kinds, nextAlso _ on⟩
  | callIndirect =>
    obtain ⟨callee, kind, rest, found, tableFound, element, kinds, on⟩ := flow
    exact ⟨callee, kind, rest, found, tableFound, element, kinds, nextAlso _ on⟩
  | operator operator =>
    obtain ⟨simple, params, results, rest, effect, kinds, on⟩ := flow
    exact ⟨simple, params, results, rest, effect, kinds, nextAlso _ on⟩

variable (source type locals) in
/-- Code with the kinds in front of each instruction, from which control goes on with kinds of which
`exit` holds. -/
def Run (lands : Nat → List ValueKind → Prop) (exit : List ValueKind → Prop) :
    List (List ValueKind × Normalized) → Prop
  | [] => True
  | [(stack, instr)] => CodeFlow source type locals lands exit stack instr
  | (stack, instr) :: (after, next) :: rest =>
    CodeFlow source type locals lands (· = after) stack instr ∧
      Run lands exit ((after, next) :: rest)

theorem Run.get (runs : Run source type locals lands exit run)
    (found : run[offset]? = some (stack, instr)) : CodeFlow source type locals lands
      (fun after => (∃ next, run[offset + 1]? = some (after, next)) ∨
        offset + 1 = run.length ∧ exit after) stack instr := by
  induction run generalizing offset with
  | nil => cases found
  | cons _ rest ih =>
    cases rest with
    | nil =>
      cases offset with
      | zero =>
        cases found
        exact CodeFlow.mono runs (fun _ _ _ there => there) fun _ on => .inr ⟨rfl, on⟩
      | succ offset => cases found
    | cons next rest =>
      obtain ⟨flow, runs⟩ := runs
      cases offset with
      | zero =>
        cases found
        exact flow.mono (fun _ _ _ there => there) fun after on => .inl ⟨next.2, by simp [on]⟩
      | succ offset =>
        refine (ih runs found).mono (fun _ _ _ there => there) ?_
        rintro after (on | ⟨last, on⟩)
        · exact .inl (by simpa using on)
        · exact .inr ⟨by simpa using last, on⟩

theorem Run.mono (runs : Run source type locals lands exit run)
    (landsAlso : ∀ label stack, lands label stack → lands' label stack) :
    Run source type locals lands' exit run := by
  induction run with
  | nil => trivial
  | cons _ rest ih =>
    cases rest with
    | nil => exact CodeFlow.mono runs (fun _ _ _ => landsAlso _ _) fun _ on => on
    | cons _ rest => exact ⟨runs.1.mono (fun _ _ _ => landsAlso _ _) fun _ on => on, ih runs.2⟩

theorem Run.cons (flow : CodeFlow source type locals lands (· = after) stack instr)
    (first : run.head?.map Prod.fst = some after) (runs : Run source type locals lands exit run) :
    Run source type locals lands exit ((stack, instr) :: run) := by
  cases run with
  | nil => cases first
  | cons =>
    refine ⟨flow.mono (fun _ _ _ there => there) fun _ on => ?_, runs⟩
    exact on.trans (some.inj first).symm

/-- Whatever follows an instruction from which control does not go on. -/
theorem Run.cons_of_stop (flow : ∀ next, CodeFlow source type locals lands next stack instr)
    (runs : Run source type locals lands exit run) :
    Run source type locals lands exit ((stack, instr) :: run) := by
  cases run with
  | nil => exact flow exit
  | cons next => exact ⟨flow _, runs⟩

end

/-! ## Typing the pieces -/

section Pieces

variable {source : Module} {type : FunctionType} {body : Body} {shapes : Nat → Option Shape}

def ShapedAt (shapes : Nat → Option Shape) (index : Nat) (stack : List ValueKind) : Prop :=
  ∃ blocks, shapes index = some ⟨stack, blocks⟩

/-- A jump lands with the operands that it carries. -/
theorem shapedAt_of_lands (lands : Lands body shapes index blocks depth target block) :
    ShapedAt shapes target (block.label.reverse ++ block.beneath) := by
  obtain ⟨outer, _, lands⟩ := lands
  unfold Block.label
  cases loop : block.isLoop with
  | true =>
    simp only [loop, if_true] at lands ⊢
    exact ⟨outer, lands.2.2.1⟩
  | false =>
    simp only [loop] at lands ⊢
    exact ⟨_, lands.2.1⟩

theorem shapedAt_of_leaves (lands : Lands body shapes index blocks depth target block')
    (leaves : Leaves blocks operands depth block []) : ShapedAt shapes target operands := by
  obtain ⟨found, kinds⟩ := leaves
  rw [get_of_lands lands, some.injEq] at found
  subst found
  rw [kinds]
  exact shapedAt_of_lands lands

variable (source type) in
theorem run_jump (lands : Lands body shapes index blocks depth target block')
    (leaves : Leaves blocks operands depth block own) (exit : List ValueKind → Prop)
    (locals : List ValueKind) :
    ∃ run, run.map Prod.snd = (unwind own block.label).toList ++ [.goto target] ∧
      run.head?.map Prod.fst = some operands ∧
      Run source type locals (ShapedAt shapes) exit run := by
  obtain ⟨found, kinds⟩ := leaves
  rw [get_of_lands lands, some.injEq] at found
  subst found
  have landed := shapedAt_of_lands lands
  by_cases empty : own = []
  · subst empty
    exact ⟨[(operands, .goto target)], by simp [unwind], rfl, by rw [kinds]; exact landed⟩
  · refine ⟨[(operands, .dropKeep own.reverse block'.label),
      (block'.label.reverse ++ block'.beneath, .goto target)], by simp [unwind, empty], rfl, ?_⟩
    exact ⟨⟨block'.beneath, by simp [kinds], rfl⟩, landed⟩

variable (source type) in
/-- Stubs are typed, and each is reached through its label. -/
theorem run_stubs (exit : List ValueKind → Prop) (locals : List ValueKind)
    (base : Nat) (stubs : List Stub)
    (lands : ∀ stub ∈ stubs, ∃ depth block, Lands body shapes index blocks depth stub.target block ∧
      stub.carried = block.label ∧ rest = block.label.reverse ++ (stub.own ++ block.beneath)) :
    ∃ run, run.map Prod.snd = stubsCode base stubs ∧ (∀ {place : Nat}, place < stubs.length →
        ∃ offset : Nat, run[offset]? = some (rest, .label (base + place))) ∧
      Run source type locals (ShapedAt shapes) exit run := by
  induction stubs generalizing base with
  | nil => exact ⟨[], rfl, fun inside => absurd inside (Nat.not_lt_zero _), trivial⟩
  | cons stub stubs ih =>
    obtain ⟨run, drawn, reached, runs⟩ := ih (base + 1)
      (fun other member => lands other (List.mem_cons_of_mem _ member))
    obtain ⟨depth, block, landing, carried, kinds⟩ := lands stub mem_cons_self
    refine ⟨(rest, .label base) :: (rest, .dropKeep stub.own.reverse stub.carried) ::
      (block.label.reverse ++ block.beneath, .goto stub.target) :: run, by simp [stubsCode, drawn],
      ?_, ?_⟩
    · intro place inside
      cases place with
      | zero => exact ⟨0, rfl⟩
      | succ place =>
        obtain ⟨offset, found⟩ := reached (Nat.lt_of_succ_lt_succ inside)
        refine ⟨offset + 3, ?_⟩
        rw [show base + (place + 1) = base + 1 + place by omega]
        simpa using found
    · refine ⟨rfl, ⟨block.beneath, by simp [kinds, carried], by rw [carried]⟩, ?_⟩
      exact runs.cons_of_stop fun _ => shapedAt_of_lands landing

/-- The kinds in front of the instructions of a piece. They start with those of the shape. -/
def PieceTyped (source : Module) (type : FunctionType) (body : Body)
    (shapes : Nat → Option Shape) (index : Nat) (shape : Shape)
    (run : List (List ValueKind × Normalized)) : Prop :=
  (match run with
    | [] => ShapedAt shapes (index + 1) shape.operands ∨
        index + 1 = body.instructions.size ∧ shape.operands = type.results.reverse
    | (stack, _) :: _ => stack = shape.operands) ∧
    Run source type (type.params ++ body.locals)
      (fun label stack => ShapedAt shapes label stack ∨
        ∃ offset : Nat, run[offset]? = some (stack, .label label))
      (ShapedAt shapes (index + 1)) run

theorem exists_run (run : List (List ValueKind × Normalized)) (code : run.map Prod.snd = piece)
    (first : run.head?.map Prod.fst = some shape.operands)
    (runs : Run source type (type.params ++ body.locals) (ShapedAt shapes)
      (ShapedAt shapes (index + 1)) run) :
    ∃ run, run.map Prod.snd = piece ∧ PieceTyped source type body shapes index shape run := by
  refine ⟨run, code, ?_, runs.mono fun _ _ there => .inl there⟩
  cases run with
  | nil => cases first
  | cons => exact some.inj first

/-- A piece of one instruction, behind which control goes on with a new shape. -/
theorem exists_single (code : piece = [instr])
    (flow : CodeFlow source type (type.params ++ body.locals) (ShapedAt shapes)
      (ShapedAt shapes (index + 1)) shape.operands instr) :
    ∃ run, run.map Prod.snd = piece ∧ PieceTyped source type body shapes index shape run :=
  exists_run [(shape.operands, instr)] code.symm rfl flow

/-- Two instructions, the first of which hands its kinds to the second. -/
theorem exists_pair (code : piece = [first, second])
    (flow : CodeFlow source type (type.params ++ body.locals) (ShapedAt shapes) (· = after)
      shape.operands first)
    (behind : CodeFlow source type (type.params ++ body.locals) (ShapedAt shapes)
      (ShapedAt shapes (index + 1)) after second) :
    ∃ run, run.map Prod.snd = piece ∧ PieceTyped source type body shapes index shape run :=
  exists_run [(shape.operands, first), (after, second)] code.symm rfl ⟨flow, behind⟩

theorem exists_pieceTyped {instr : Instruction}
    (fits : Fits source type body shapes index shape instr)
    (drawn : Piece type index shape instr base next piece) :
    ∃ run, run.map Prod.snd = piece ∧ PieceTyped source type body shapes index shape run := by
  have flow := fits.flow
  cases same : instr.operator with simp only [OperatorFlow, Piece, same] at flow drawn
  | branchTable =>
    obtain ⟨_, length, rest, kinds, lands⟩ := flow
    obtain ⟨rest', kinds', drawn⟩ := drawn
    rw [kinds, cons.injEq] at kinds'
    obtain ⟨_, rfl⟩ := kinds'
    rcases drawn with ⟨target, depth, block, own, table, depths, leaves, _, code⟩ |
      ⟨routes, stubs, routed, _, code⟩
    · obtain ⟨target', block', _, found, landing, _⟩ := lands 0 depth (by simp [depths])
      rw [table] at found
      cases found
      obtain ⟨run, jumps, first, runs⟩ := run_jump source type landing leaves
        (ShapedAt shapes (index + 1)) (type.params ++ body.locals)
      refine exists_run ((shape.operands, .drop .i32) :: run) (by simp [jumps, code]) rfl ?_
      exact runs.cons ⟨rest, kinds, rfl⟩ first
    · have stubsLand : ∀ stub ∈ stubs, ∃ depth block,
          Lands body shapes index shape.blocks depth stub.target block ∧
            stub.carried = block.label ∧
            rest = block.label.reverse ++ (stub.own ++ block.beneath) := by
        intro stub member
        obtain ⟨entry, depth, block, listed, found, leaves, carried⟩ := routed.stub stub member
        obtain ⟨target, block', _, found', landing, _⟩ := lands entry depth listed
        rw [found, Option.some.injEq] at found'
        subst found'
        have sameBlock := leaves.1
        rw [get_of_lands landing, Option.some.injEq] at sameBlock
        subst sameBlock
        exact ⟨depth, _, landing, carried, leaves.2⟩
      obtain ⟨run, drawn, reached, runs⟩ := run_stubs source type (ShapedAt shapes (index + 1))
        (type.params ++ body.locals) base stubs stubsLand
      refine ⟨(shape.operands, .switch routes) :: run, by simp [drawn, code], rfl, ?_⟩
      refine (runs.mono fun _ _ there => .inl there).cons_of_stop fun _ => ?_
      have nonempty : routes ≠ [] := by
        rw [← List.length_pos_iff, routed.length, length]
        simp
      refine ⟨nonempty, rest, kinds, fun _ member => ?_⟩
      obtain ⟨entry, found⟩ := List.mem_iff_getElem?.mp member
      have inside : entry < instr.labelTable.length := routed.length ▸ lt_length found
      have target := List.getElem?_eq_getElem inside
      have listed := List.getElem?_eq_getElem (length ▸ inside)
      obtain ⟨block, own, _, leaves, found', goes⟩ := routed.entry listed target
      rw [found, Option.some.injEq] at found'
      subst found'
      obtain ⟨target', _, _, found'', landing, _⟩ := lands entry _ listed
      rw [target, Option.some.injEq] at found''
      rcases goes with ⟨rfl, direct⟩ | ⟨place, through, stub⟩
      · rw [← found''] at landing
        rw [direct]
        exact .inl (shapedAt_of_leaves landing leaves)
      · obtain ⟨offset, there⟩ := reached (lt_length stub)
        exact .inr ⟨offset + 1, by simpa [through] using there⟩
  | nop =>
    obtain ⟨_, _, rest, ⟨rfl, rfl⟩, kinds, after⟩ := flow
    refine ⟨[], drawn.2.symm, .inl ?_, trivial⟩
    rw [kinds]
    exact ⟨_, after⟩
  | unreachable => exact exists_single drawn.2 trivial
  | enter form =>
    cases form with
    | conditional =>
      obtain ⟨block, target, _, _, _, kinds, after, label, _, there, _⟩ := flow
      obtain ⟨_, target', label', code⟩ := drawn
      rw [label, Option.some.injEq] at label'
      subst label'
      exact exists_single code ⟨block.entry, kinds, ⟨_, there⟩, ⟨_, after⟩⟩
    | block | loop =>
      obtain ⟨block, _, _, _, _, kinds, after⟩ := flow
      refine ⟨[], drawn.2.symm, .inl ?_, trivial⟩
      rw [kinds]
      exact ⟨_, after⟩
  | otherwise =>
    obtain ⟨block, outer, target, _, _, kinds, _, label, _, ends⟩ := flow
    obtain ⟨_, target', label', code⟩ := drawn
    rw [label, Option.some.injEq] at label'
    subst label'
    exact exists_single code ⟨block.settled :: outer, by rw [kinds]; exact ends.1⟩
  | finish =>
    obtain ⟨block, outer, blocks, _, kinds, ends⟩ := flow
    refine ⟨[], drawn.2.symm, ?_, trivial⟩
    rcases ends with ⟨rfl, last⟩ | ⟨_, after⟩
    · have nested := fits.nested
      rw [blocks] at nested
      refine .inr ⟨last, ?_⟩
      rw [kinds, eq_body_of_nested_singleton nested]
      simp [Block.exit, Block.body]
    · rw [kinds]
      exact .inl ⟨_, after⟩
  | branch depth =>
    obtain ⟨_, target, block, own, label, lands, _⟩ := flow
    obtain ⟨_, target', block', own', label', leaves, code⟩ := drawn
    rw [label, Option.some.injEq] at label'
    subst label'
    obtain ⟨run, jumps, first, runs⟩ := run_jump source type lands leaves _ _
    exact exists_run run (jumps.trans code.symm) first runs
  | branchIf depth =>
    obtain ⟨target, block, own, label, _, lands, kinds, after⟩ := flow
    obtain ⟨_, target', block', rest, own', label', kinds', leaves, code⟩ := drawn
    rw [label, Option.some.injEq] at label'
    subst label'
    rw [kinds, cons.injEq] at kinds'
    rw [kinds'.2] at kinds after
    obtain ⟨run, jumps, first, runs⟩ := run_jump source type lands leaves
      (ShapedAt shapes (index + 1)) (type.params ++ body.locals)
    by_cases empty : own' = []
    · simp only [unwind, empty, if_true] at code
      rw [empty] at leaves
      exact exists_single code ⟨rest, kinds, shapedAt_of_leaves lands leaves, ⟨_, after⟩⟩
    · simp only [unwind, empty, if_false] at code jumps
      refine exists_run ((shape.operands, .ifZero (index + 1)) :: run) ?_ rfl ?_
      · simp [jumps, code]
      · exact runs.cons ⟨rest, kinds, ⟨_, after⟩, rfl⟩ first
  | leave => exact exists_single drawn.2 ⟨rfl, flow.2⟩
  | call function =>
    obtain ⟨params, results, rest, effect, kinds, after⟩ := flow
    exact exists_single drawn.2 ⟨⟨params, results⟩, rest, effect, kinds, ⟨_, after⟩⟩
  | callIndirect table typeIndex =>
    obtain ⟨_, _, rest, ⟨callee, kind, found, tableFound, element, rfl, rfl⟩, kinds, after⟩ := flow
    exact exists_single drawn.2
      ⟨callee, kind, rest, found, tableFound, element, by simp [kinds], ⟨_, after⟩⟩
  | tailCall function =>
    obtain ⟨_, callee, rest, found, results, kinds⟩ := flow
    exact exists_pair drawn.2 ⟨callee, rest, found, kinds, rfl⟩ ⟨rfl, rest, by rw [results]⟩
  | tailCallIndirect table typeIndex =>
    obtain ⟨_, callee, kind, rest, found, tableFound, element, results, kinds⟩ := flow
    exact exists_pair drawn.2 ⟨callee, kind, rest, found, tableFound, element, kinds, rfl⟩
      ⟨rfl, rest, by rw [results]⟩
  | drop | select =>
    obtain ⟨_, _, rest, ⟨kind, rfl, rfl⟩, kinds, after⟩ := flow
    obtain ⟨_, kind', rest', kinds', code⟩ := drawn
    rw [kinds] at kinds'
    cases kinds'
    exact exists_single code ⟨rest, kinds, ⟨_, after⟩⟩
  | selectKind kind =>
    obtain ⟨_, _, rest, ⟨rfl, rfl⟩, kinds, after⟩ := flow
    obtain ⟨_, kind', rest', kinds', code⟩ := drawn
    rw [kinds] at kinds'
    cases kinds'
    exact exists_single code ⟨rest, kinds, ⟨_, after⟩⟩
  | localTee place =>
    obtain ⟨_, _, rest, ⟨kind, found, rfl, rfl⟩, kinds, after⟩ := flow
    obtain ⟨_, kind', rest', kinds', code⟩ := drawn
    rw [kinds] at kinds'
    cases kinds'
    refine exists_single code ⟨found, rest, kinds, shape.blocks, ?_⟩
    rw [kinds]
    exact after
  | _ =>
    obtain ⟨params, results, rest, effect, kinds, after⟩ := flow
    exact exists_single drawn.2 ⟨rfl, params, results, rest, effect, kinds, ⟨_, after⟩⟩

end Pieces

/-! ## Typing the whole code -/

theorem CodeFlow.lands_of_target (flow : CodeFlow source type locals lands next stack instr)
    (jumps : target ∈ instr.targets) : ∃ stack, lands target stack := by
  cases instr with
  | goto other =>
    rw [mem_singleton.mp jumps]
    exact ⟨stack, flow⟩
  | ifZero other | ifNonzero other =>
    obtain ⟨rest, _, there, _⟩ := flow
    rw [mem_singleton.mp jumps]
    exact ⟨rest, there⟩
  | switch targets =>
    obtain ⟨_, rest, _, there⟩ := flow
    exact ⟨rest, there target jumps⟩
  | _ => cases jumps

namespace Layout

variable {source : Module} {type : FunctionType} {body : Body} {shapes : Nat → Option Shape}

theorem code_get_label (layout : Layout type body shapes) {instr : Instruction}
    (found : body.instructions[index]? = some instr) (jumps : label ∈ instr.labels)
    (inside : label < body.instructions.size) :
    layout.code[layout.place label]? = some (.label label) := by
  have marked := mark_of_label found jumps inside
  have first : (layout.part label)[0]? = some (.label label) := by simp [part, marked]
  have stands := layout.code_get_part inside (lt_length first)
  rw [first] at stands
  exact stands

theorem targets_mark (member : instr ∈ mark body index) : label ∉ instr.targets := by
  unfold mark at member
  split at member
  · rw [mem_singleton] at member
    subst member
    exact List.not_mem_nil
  · cases member

theorem mem_code_of_mem_pieces (layout : Layout type body shapes)
    (inside : index < body.instructions.size) (member : instr ∈ layout.pieces index) :
    instr ∈ layout.code :=
  List.mem_append_left _ (mem_flatMap.mpr
    ⟨index, mem_range.mpr inside, List.mem_append_right _ member⟩)

theorem lt_of_shapedAt (typed : BodyTyped source type body shapes)
    (shaped : ShapedAt shapes index stack) : index < body.instructions.size := by
  obtain ⟨_, shaped⟩ := shaped
  obtain ⟨_, found, _⟩ := typed.fits shaped
  exact lt_size found

theorem count_label (typed : BodyTyped source type body shapes) (layout : Layout type body shapes)
    (member : instr ∈ layout.code) (jumps : target ∈ instr.targets) :
    layout.code.count (.label target) = 1 := by
  have distinct := (layout.labelsOf_before typed (Nat.le_refl _)).2.2
  rw [← layout.labelsOf_code] at distinct
  suffices defined : target ∈ labelsOf layout.code by
    rw [count_labelsOf]
    have := List.nodup_iff_count.mp distinct target
    have := List.count_pos_iff.mpr defined
    omega
  rcases mem_append.mp member with inside | last
  · obtain ⟨index, below, here⟩ := mem_flatMap.mp inside
    rw [mem_range] at below
    rcases mem_append.mp here with marked | drawn
    · exact absurd jumps (targets_mark marked)
    · cases shaped : shapes index with
      | none =>
        rw [(layout.dead below shaped).1] at drawn
        cases drawn
      | some =>
        obtain ⟨_, found, fits⟩ := typed.fits shaped
        have piece := layout.live shaped found
        obtain ⟨count, _, _, labelled⟩ := labelled_of_piece fits.flow piece
        rcases labelled instr drawn target jumps with listed | own
        · obtain ⟨_, code, _, runs⟩ := exists_pieceTyped fits piece
          rw [← code] at drawn
          obtain ⟨⟨_, _⟩, entry, rfl⟩ := mem_map.mp drawn
          obtain ⟨offset, at_⟩ := List.mem_iff_getElem?.mp entry
          obtain ⟨_, there | ⟨offset, stub⟩⟩ := (runs.get at_).lands_of_target jumps
          · exact mem_labelsOf.mpr (List.mem_of_getElem?
              (layout.code_get_label found listed (lt_of_shapedAt typed there)))
          · refine mem_labelsOf.mpr (layout.mem_code_of_mem_pieces below ?_)
            rw [← code]
            exact mem_map.mpr ⟨_, List.mem_of_getElem? stub, rfl⟩
        · exact mem_labelsOf.mpr (layout.mem_code_of_mem_pieces below (mem_labelsOf.mp own))
  · rw [mem_singleton] at last
    subst last
    cases jumps

def partKinds (layout : Layout type body shapes)
    (runs : Nat → List (List ValueKind × Normalized)) (index : Nat) :
    List (Option (List ValueKind)) :=
  match shapes index with
  | none => (layout.part index).map fun _ => none
  | some shape =>
    (mark body index).map (fun _ => some shape.operands) ++
      (runs index).map fun pair => some pair.1

def kinds (layout : Layout type body shapes) (runs : Nat → List (List ValueKind × Normalized))
    (place : Nat) : Option (List ValueKind) :=
  ((List.range body.instructions.size).flatMap (layout.partKinds runs) ++
    [some type.results.reverse])[place]?.join

variable (source) in
def PiecesTyped (layout : Layout type body shapes)
    (runs : Nat → List (List ValueKind × Normalized)) : Prop :=
  ∀ {index : Nat} {shape : Shape}, shapes index = some shape →
    (runs index).map Prod.snd = layout.pieces index ∧
      PieceTyped source type body shapes index shape (runs index)

theorem exists_piecesTyped (typed : BodyTyped source type body shapes)
    (layout : Layout type body shapes) : ∃ runs, layout.PiecesTyped source runs := by
  have each : ∀ index, ∃ run, ∀ {shape}, shapes index = some shape →
      run.map Prod.snd = layout.pieces index ∧
        PieceTyped source type body shapes index shape run := by
    intro index
    cases shaped : shapes index with
    | none => exact ⟨[], fun other => nomatch other⟩
    | some shape =>
      obtain ⟨_, found, fits⟩ := typed.fits shaped
      obtain ⟨run, code, typed⟩ := exists_pieceTyped fits (layout.live shaped found)
      refine ⟨run, fun same => ?_⟩
      cases same
      exact ⟨code, typed⟩
  obtain ⟨runs, typed⟩ := Classical.axiomOfChoice each
  exact ⟨runs, fun shaped => typed _ shaped⟩

section

variable {layout : Layout type body shapes} {runs : Nat → List (List ValueKind × Normalized)}
  (pieces : layout.PiecesTyped source runs)

include pieces

theorem length_partKinds (index : Nat) :
    (layout.partKinds runs index).length = (layout.part index).length := by
  unfold partKinds
  cases shaped : shapes index with
  | none => simp
  | some => simp [part, ← (pieces shaped).1]

theorem place_eq_length (index : Nat) :
    layout.place index = ((List.range index).flatMap (layout.partKinds runs)).length :=
  (length_flatMap_range_eq _ _ index fun other _ => length_partKinds pieces other).symm

theorem kinds_part (inside : index < body.instructions.size)
    (within : offset < (layout.part index).length) :
    layout.kinds runs (layout.place index + offset) =
      ((layout.partKinds runs index)[offset]?).join := by
  rw [kinds, place_eq_length pieces, getElem?_flatMap_range _ _ inside]
  rw [length_partKinds pieces]
  exact within

theorem kinds_end :
    layout.kinds runs (layout.place body.instructions.size) = some type.results.reverse := by
  rw [kinds, place_eq_length pieces]
  simp

/-- Kinds in front of an instruction of the code are those of a part or of the return at the end. -/
theorem part_of_kinds {place : Nat} (found : layout.kinds runs place = some stack) :
    (place = layout.place body.instructions.size ∧ stack = type.results.reverse) ∨
      ∃ index offset, index < body.instructions.size ∧ place = layout.place index + offset ∧
        offset < (layout.part index).length ∧
        (layout.partKinds runs index)[offset]? = some (some stack) := by
  have listed := join_eq_some_iff.mp found
  by_cases inside : place < layout.place body.instructions.size
  · rw [place_eq_length pieces] at inside
    obtain ⟨index, offset, below, within, same⟩ := exists_of_lt_flatMap_range _ _ place inside
    rw [← place_eq_length pieces] at same
    rw [length_partKinds pieces] at within
    refine .inr ⟨index, offset, below, same, within, ?_⟩
    rw [same, kinds_part pieces below within] at found
    exact join_eq_some_iff.mp found
  · refine .inl ?_
    rw [List.getElem?_append_right (by rw [← place_eq_length pieces]; omega),
      ← place_eq_length pieces] at listed
    have zero := lt_length listed
    simp only [List.length_singleton] at zero
    have last : place = layout.place body.instructions.size := by omega
    rw [last, kinds_end pieces, some.injEq] at found
    exact ⟨last, found.symm⟩

theorem kinds_run (inside : index < body.instructions.size) (shaped : shapes index = some shape)
    (found : (runs index)[offset]? = some (stack, instr)) :
    layout.kinds runs (layout.place index + ((mark body index).length + offset)) = some stack ∧
      layout.code[layout.place index + ((mark body index).length + offset)]? = some instr := by
  have drawn : (layout.pieces index)[offset]? = some instr := by
    rw [← (pieces shaped).1, getElem?_map, found]
    rfl
  have stands : (layout.part index)[(mark body index).length + offset]? = some instr := by
    rw [part, List.getElem?_append_right (by omega), Nat.add_sub_cancel_left, drawn]
  have within := lt_length stands
  constructor
  · rw [kinds_part pieces inside within, partKinds, shaped]
    rw [List.getElem?_append_right (by simp), length_map, Nat.add_sub_cancel_left, getElem?_map,
      found]
    rfl
  · rw [layout.code_get_part inside within, stands]

section

variable (typed : BodyTyped source type body shapes)

include typed

/-- The kinds in front of an instruction are those of its shape, also behind its label. -/
theorem kinds_place (shaped : shapes index = some shape) :
    layout.kinds runs (layout.place index) = some shape.operands ∧
      layout.kinds runs (layout.place index + (mark body index).length) = some shape.operands := by
  have inside := lt_of_shapedAt typed ⟨shape.blocks, shaped⟩
  -- an instruction without code has the kinds of the next one, so the induction goes backwards
  induction left : body.instructions.size - index generalizing index shape with
  | zero => omega
  | succ left ih =>
    have behind : layout.kinds runs (layout.place index + (mark body index).length) =
        some shape.operands := by
      obtain ⟨code, first, _⟩ := pieces shaped
      cases drawn : runs index with
      | nil =>
        rw [drawn] at first code
        have next : layout.place index + (mark body index).length = layout.place (index + 1) := by
          rw [place_succ, part, ← code]
          simp
        rw [next]
        rcases first with ⟨blocks, after⟩ | ⟨last, same⟩
        · exact (ih after (lt_of_shapedAt typed ⟨blocks, after⟩) (by omega)).1
        · rw [last, kinds_end pieces, same]
      | cons pair rest =>
        rw [drawn] at first
        have found : (runs index)[0]? = some (pair.1, pair.2) := by rw [drawn]; rfl
        have here := (kinds_run pieces inside shaped found).1
        rw [show pair.1 = shape.operands from first] at here
        exact here
    refine ⟨?_, behind⟩
    cases marked : mark body index with
    | nil => simpa [marked] using behind
    | cons label rest =>
      have within : 0 < (layout.part index).length := by simp [part, marked]
      have here := kinds_part pieces inside within
      rw [partKinds, shaped, marked] at here
      simpa using here

theorem codeFlow_run (inside : index < body.instructions.size) (shaped : shapes index = some shape)
    (found : (runs index)[offset]? = some (stack, instr)) :
    CodeFlow source type (type.params ++ body.locals)
      (fun label stack => ∃ target, layout.code[target]? = some (.label label) ∧
        layout.kinds runs target = some stack) (fun stack => layout.kinds runs
        (layout.place index + ((mark body index).length + offset) + 1) = some stack)
      stack instr := by
  obtain ⟨code, _, runsTyped⟩ := pieces shaped
  obtain ⟨original, foundOriginal, fits⟩ := typed.fits shaped
  obtain ⟨_, _, taken, labelled⟩ := labelled_of_piece fits.flow (layout.live shaped foundOriginal)
  have member : instr ∈ layout.pieces index := by
    rw [← code]
    exact mem_map.mpr ⟨_, List.mem_of_getElem? found, rfl⟩
  refine (runsTyped.get found).mono ?_ ?_
  · rintro label after jumps (there | ⟨_, stub⟩)
    · have below := lt_of_shapedAt typed there
      obtain ⟨blocks, there⟩ := there
      have listed : label ∈ original.labels := by
        refine (labelled instr member label jumps).resolve_right fun own => ?_
        have above := (layout.labelsOf_before typed (Nat.le_of_lt inside)).1
        rw [taken] at own
        have := List.mem_range'_1.mp own
        omega
      exact ⟨_, layout.code_get_label foundOriginal listed below,
        (kinds_place pieces typed there).1⟩
    · have ⟨kinds, stands⟩ := kinds_run pieces inside shaped stub
      exact ⟨_, stands, kinds⟩
  · rintro after (⟨next, behind⟩ | ⟨last, ⟨blocks, there⟩⟩)
    · exact (kinds_run pieces inside shaped behind).1
    · have next : layout.place index + ((mark body index).length + offset) + 1 =
          layout.place (index + 1) := by
        have length := congrArg List.length code
        rw [length_map] at length
        rw [place_succ, part, List.length_append, ← length, ← last]
        omega
      rw [next]
      exact (kinds_place pieces typed there).1

theorem codeTyped :
    CodeTyped source type (type.params ++ body.locals) layout.code (layout.kinds runs) := by
  refine ⟨?_, ?_⟩
  · have first := (kinds_place pieces typed typed.start).1
    simpa [place, before] using first
  · intro place _ found
    rcases part_of_kinds pieces found with ⟨rfl, rfl⟩ | ⟨index, offset, inside, rfl, within, listed⟩
    · exact ⟨_, layout.code_get_end, rfl, [], by simp⟩
    · cases shaped : shapes index with
      | none =>
        rw [partKinds, shaped, getElem?_map, map_eq_some_iff] at listed
        obtain ⟨_, _, absurd⟩ := listed
        cases absurd
      | some =>
        rw [partKinds, shaped] at listed
        by_cases front : offset < (mark body index).length
        · rw [List.getElem?_append_left (by simpa using front), getElem?_map,
            map_eq_some_iff] at listed
          obtain ⟨instr, _, same⟩ := listed
          cases same
          have only : mark body index = [.label index] := by
            unfold mark at front ⊢
            split <;> simp_all
          have zero : offset = 0 := by
            rw [only] at front
            simpa using front
          subst zero
          refine ⟨.label index, ?_, ?_⟩
          · rw [layout.code_get_part inside within]
            simp [part, only]
          · have behind := (kinds_place pieces typed shaped).2
            rw [only] at behind
            exact behind
        · rw [List.getElem?_append_right (by simpa using front), length_map,
            getElem?_map, map_eq_some_iff] at listed
          obtain ⟨⟨_, instr⟩, entry, same⟩ := listed
          cases same
          have split : offset = (mark body index).length + (offset - (mark body index).length) := by
            omega
          rw [split]
          exact ⟨instr, (kinds_run pieces inside shaped entry).2,
            codeFlow_run pieces typed inside shaped entry⟩

end

theorem exists_kinds (member : instr ∈ layout.code) : (∃ label, instr = .label label) ∨
      ∃ place stack, layout.kinds runs place = some stack ∧ layout.code[place]? = some instr := by
  rcases mem_append.mp member with front | last
  · obtain ⟨index, listed, inPart⟩ := mem_flatMap.mp front
    have inside := mem_range.mp listed
    rcases mem_append.mp inPart with inMark | inPiece
    · refine .inl ⟨index, ?_⟩
      unfold mark at inMark
      split at inMark
      · exact mem_singleton.mp inMark
      · cases inMark
    · cases shaped : shapes index with
      | none =>
        rw [(layout.dead inside shaped).1] at inPiece
        cases inPiece
      | some =>
        rw [← (pieces shaped).1] at inPiece
        obtain ⟨⟨stack, _⟩, inRun, rfl⟩ := mem_map.mp inPiece
        obtain ⟨_, found⟩ := List.mem_iff_getElem?.mp inRun
        exact .inr ⟨_, stack, kinds_run pieces inside shaped found⟩
  · rw [mem_singleton.mp last]
    exact .inr ⟨_, _, kinds_end pieces, layout.code_get_end⟩

end

end Layout

end TwinEngine.Normal
