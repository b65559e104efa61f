import TwinEngine.Proofs.Normal.Analysis
import TwinEngine.Proofs.Normal.Typing
import TwinEngine.Proofs.Typing.Module

/-!
Contract: the kinds of the operands along the paths of normalized code.

Owns: the paths that code allows, the kinds with which each label is reached, and what branches drop
and keep.

Does not own: the kinds in front of instructions that typing assigns (`Proofs.Normal.Typing`).

A path starts in front of the first instruction without operands. It goes on behind an instruction
or at one of the labels that the instruction names, whichever values are there.
-/

namespace TwinEngine.Normal

open Typing Option
open List (tail_eq_of_cons_eq)
open Normalized (targets)

/-! ## Paths -/

/-- What an instruction does to the kinds of the operands, the last one first, if control goes on
behind it or at one of its targets. -/
def Turns (source : Module) (locals before after : List ValueKind) : Normalized → Prop
  | .label _ | .goto _ => after = before
  | .ifZero _ | .ifNonzero _ | .switch _ => before = .i32 :: after
  | .dropKeep drop keep =>
    ∃ rest, before = keep.reverse ++ (drop.reverse ++ rest) ∧ after = keep.reverse ++ rest
  | .leave _ | .trap => False
  | .drop kind => before = kind :: after
  | .select kind => ∃ rest, before = .i32 :: kind :: kind :: rest ∧ after = kind :: rest
  | .localTee index kind =>
    locals[index]? = some kind ∧ ∃ rest, before = kind :: rest ∧ after = before
  | .call function =>
    ∃ callee rest, source.functionType function = some callee ∧
      before = callee.params.reverse ++ rest ∧ after = callee.results.reverse ++ rest
  | .callIndirect typeIndex _ =>
    ∃ callee rest, source.types[typeIndex]? = some callee ∧
      before = .i32 :: (callee.params.reverse ++ rest) ∧ after = callee.results.reverse ++ rest
  | .operator operator =>
    ∃ params results rest, Validation.Effect source locals params results operator ∧
      before = params.reverse ++ rest ∧ after = results.reverse ++ rest

/-- Instructions behind which control never goes on. -/
def isFinal : Normalized → Bool
  | .goto _ | .switch _ | .leave _ | .trap => true
  | _ => false

/-- Instructions that end the run of a body. -/
def isExit : Normalized → Bool
  | .leave _ | .trap => true
  | _ => false

/-- A path of code comes to a place with operands of these kinds, the last one first. -/
inductive Reaches (source : Module) (locals : List ValueKind) (code : List Normalized) :
    Nat → List ValueKind → Prop
  | start : Reaches source locals code 0 []
  | next {place : Nat} {before after : List ValueKind} {instr : Normalized} :
      Reaches source locals code place before → code[place]? = some instr →
      isFinal instr = false → Turns source locals before after instr →
      Reaches source locals code (place + 1) after
  | jump {place there label : Nat} {before after : List ValueKind} {instr : Normalized} :
      Reaches source locals code place before → code[place]? = some instr →
      label ∈ instr.targets → Turns source locals before after instr →
      code[there]? = some (.label label) → Reaches source locals code there after

section Determined

variable {source : Module} {type : FunctionType} {locals : List ValueKind}

section

variable (effect : Validation.Effect source locals params results operator)
  (effect' : Validation.Effect source locals params' results' operator)

include effect effect'

theorem effect_determined :
    params.length = params'.length ∧ (params = params' → results = results') := by
  cases operator <;> simp only [Validation.Effect] at effect effect' <;> grind

theorem effect_outcome (same : params.reverse ++ rest = params'.reverse ++ rest') :
    results.reverse ++ rest = results'.reverse ++ rest' := by
  obtain ⟨length, outcome⟩ := effect_determined effect effect'
  obtain ⟨front, back⟩ := List.append_inj same (by simpa using length)
  rw [outcome (List.reverse_inj.mp front), back]

end

variable {lands : Nat → List ValueKind → Prop} {next : List ValueKind → Prop}
  {stack : List ValueKind} {instr : Normalized}

section

variable (flow : CodeFlow source type locals lands next stack instr)

include flow

/-- A typed instruction can be carried out unless it ends the run. -/
theorem CodeFlow.exists_turns (goesOn : isExit instr = false) :
    ∃ after, Turns source locals stack after instr := by
  cases instr with
  | label | goto => exact ⟨stack, rfl⟩
  | ifZero | ifNonzero | drop kind =>
    obtain ⟨rest, kinds, _⟩ := flow
    exact ⟨rest, kinds⟩
  | switch =>
    obtain ⟨_, rest, kinds, _⟩ := flow
    exact ⟨rest, kinds⟩
  | dropKeep drop keep | select kind =>
    obtain ⟨rest, kinds, _⟩ := flow
    exact ⟨_, rest, kinds, rfl⟩
  | leave | trap => cases goesOn
  | localTee _ kind =>
    obtain ⟨found, rest, kinds, _⟩ := flow
    exact ⟨stack, found, rest, kinds, rfl⟩
  | call =>
    obtain ⟨callee, rest, found, kinds, _⟩ := flow
    exact ⟨_, callee, rest, found, kinds, rfl⟩
  | callIndirect =>
    obtain ⟨callee, kind, rest, found, _, _, kinds, _⟩ := flow
    exact ⟨_, callee, rest, found, kinds, rfl⟩
  | operator operator =>
    obtain ⟨_, params, results, rest, effect, kinds, _⟩ := flow
    exact ⟨_, params, results, rest, effect, kinds, rfl⟩

/-- Wherever a typed instruction takes control, the kinds there are as typing says. -/
theorem CodeFlow.of_turns (turned : Turns source locals stack after instr) :
    (∀ label ∈ instr.targets, lands label after) ∧ (isFinal instr = false → next after) := by
  cases instr with
  | label label =>
    subst turned
    exact ⟨by simp [targets], fun _ => flow⟩
  | goto target =>
    subst turned
    refine ⟨fun label listed => ?_, by simp [isFinal]⟩
    rw [List.mem_singleton.mp listed]
    exact flow
  | ifZero target | ifNonzero target =>
    obtain ⟨rest, kinds, there, on⟩ := flow
    obtain rfl : rest = after := tail_eq_of_cons_eq (kinds.symm.trans turned)
    exact ⟨by simpa [targets] using there, fun _ => on⟩
  | switch targets =>
    obtain ⟨_, rest, kinds, there⟩ := flow
    obtain rfl : rest = after := tail_eq_of_cons_eq (kinds.symm.trans turned)
    exact ⟨there, by simp [isFinal]⟩
  | dropKeep drop =>
    obtain ⟨rest, kinds, on⟩ := flow
    obtain ⟨rest', kinds', rfl⟩ := turned
    rw [kinds, List.append_cancel_left_eq, List.append_cancel_left_eq] at kinds'
    subst kinds'
    exact ⟨by simp [targets], fun _ => on⟩
  | leave | trap => exact turned.elim
  | drop kind =>
    obtain ⟨rest, kinds, on⟩ := flow
    obtain rfl : rest = after := tail_eq_of_cons_eq (kinds.symm.trans turned)
    exact ⟨by simp [targets], fun _ => on⟩
  | select kind =>
    obtain ⟨rest, kinds, on⟩ := flow
    obtain ⟨rest', kinds', rfl⟩ := turned
    cases kinds.symm.trans kinds'
    exact ⟨by simp [targets], fun _ => on⟩
  | localTee _ kind =>
    obtain ⟨_, _, _, on⟩ := flow
    obtain ⟨_, _, _, rfl⟩ := turned
    exact ⟨by simp [targets], fun _ => on⟩
  | call =>
    obtain ⟨callee, rest, found, kinds, on⟩ := flow
    obtain ⟨callee', rest', found', kinds', rfl⟩ := turned
    cases found.symm.trans found'
    rw [kinds, List.append_cancel_left_eq] at kinds'
    subst kinds'
    exact ⟨by simp [targets], fun _ => on⟩
  | callIndirect =>
    obtain ⟨callee, kind, rest, found, _, _, kinds, on⟩ := flow
    obtain ⟨callee', rest', found', kinds', rfl⟩ := turned
    cases found.symm.trans found'
    rw [kinds, List.cons.injEq, List.append_cancel_left_eq] at kinds'
    rw [kinds'.2] at on
    exact ⟨by simp [targets], fun _ => on⟩
  | operator operator =>
    obtain ⟨_, _, _, rest, effect, kinds, on⟩ := flow
    obtain ⟨_, _, rest', effect', kinds', rfl⟩ := turned
    rw [effect_outcome effect effect' (kinds.symm.trans kinds')] at on
    exact ⟨by simp [targets], fun _ => on⟩

end

/-- A label that is defined once stands at one place. -/
theorem place_of_label (distinct : (labelsOf code).Nodup) {label first second : Nat}
    (here : code[first]? = some (.label label)) (there : code[second]? = some (.label label)) :
    first = second := by
  induction code generalizing first second with
  | nil => cases here
  | cons instr code ih =>
    have rest : (labelsOf code).Nodup := by
      cases instr <;> first | exact distinct | exact (List.nodup_cons.mp distinct).2
    have apart : ∀ {place : Nat}, instr = .label label →
        code[place]? ≠ some (.label label) := by
      intro place same found
      subst same
      exact (List.nodup_cons.mp distinct).1 (mem_labelsOf.mpr (List.mem_of_getElem? found))
    cases first with
    | zero =>
      cases second with
      | zero => rfl
      | succ second => exact absurd there (apart (some.inj here))
    | succ first =>
      cases second with
      | zero => exact absurd here (apart (some.inj there))
      | succ second => rw [ih rest here there]

theorem CodeTyped.kinds_of_reaches (typed : CodeTyped source type locals code kinds)
    (distinct : (labelsOf code).Nodup) (reached : Reaches source locals code place stack) :
    kinds place = some stack := by
  induction reached with
  | start => exact typed.start
  | next _ found goesOn turned ih =>
    obtain ⟨instr, found', flow⟩ := typed.flow ih
    cases found.symm.trans found'
    exact (flow.of_turns turned).2 goesOn
  | jump _ found listed turned defined ih =>
    obtain ⟨instr, found', flow⟩ := typed.flow ih
    cases found.symm.trans found'
    obtain ⟨_, stands, _⟩ := (flow.of_turns turned).1 _ listed
    rwa [place_of_label distinct defined stands]

end Determined

/-! ## Branches -/

/-- Instructions that branches to a block lead to: its opener if it is a loop, and otherwise its
end. -/
def Heads (body : Body) (block : Block) (target : Nat) : Prop :=
  if block.isLoop then block.opener = some target
  else ∃ instr, body.instructions[target]? = some instr ∧
    instr.operator = .finish ∧ instr.scope = block.opener

/-- How many operands a branch to a block drops: those above the ones that were there when the block
was entered, its parameters not counted, but for the ones that the block expects. -/
def dropCount (operands : List ValueKind) (block : Block) : Nat :=
  operands.length - block.beneath.length - block.label.length

/-- A jump to a block, which drops what it must from beneath what the block expects. -/
def jumpCode (operands : List ValueKind) (block : Block) (target : Nat) : List Normalized :=
  if dropCount operands block = 0 then [.goto target]
  else
    [.dropKeep ((operands.drop block.label.length).take (dropCount operands block)).reverse
      (operands.take block.label.length).reverse, .goto target]

def BranchCode (body : Body) (index : Nat) (shape : Shape) (instr : Instruction)
    (code : List Normalized) : Prop :=
  match instr.operator with
  | .branch depth =>
    ∃ block target, shape.blocks[depth]? = some block ∧ Heads body block target ∧
      code = jumpCode shape.operands block target
  | .branchIf depth =>
    ∃ block target rest, shape.blocks[depth]? = some block ∧ Heads body block target ∧
      shape.operands = .i32 :: rest ∧
      code = if dropCount rest block = 0 then [.ifNonzero target]
        else .ifZero (index + 1) :: jumpCode rest block target
  | .branchTable targets fallback =>
    ∃ rest, shape.operands = .i32 :: rest ∧
      ((∃ depth block target, targets ++ [fallback] = [depth] ∧
          shape.blocks[depth]? = some block ∧ Heads body block target ∧
          code = .drop .i32 :: jumpCode rest block target) ∨
        ∃ routes, code.head? = some (.switch routes) ∧
          routes.length = (targets ++ [fallback]).length ∧
          ∀ entry depth : Nat, (targets ++ [fallback])[entry]? = some depth →
            ∃ block target route, shape.blocks[depth]? = some block ∧ Heads body block target ∧
              routes[entry]? = some route ∧
              if dropCount rest block = 0 then route = target
              else (.label route :: jumpCode rest block target) <:+: code)
  | _ => True

section Branches

variable {source : Module} {type : FunctionType} {body : Body} {shapes : Nat → Option Shape}
  {index depth target : Nat} {blocks : List Block} {block : Block}
  {operands own : List ValueKind}

theorem heads_of_lands (lands : Lands body shapes index blocks depth target block) :
    Heads body block target := by
  obtain ⟨_, _, lands⟩ := lands
  unfold Heads
  split at lands
  · rw [if_pos ‹_›]
    exact lands.2.1
  · rw [if_neg ‹_›]
    exact lands.2.2

section

variable (leaves : Leaves blocks operands depth block own)

include leaves

theorem dropCount_of_leaves : dropCount operands block = own.length := by
  simp only [dropCount, leaves.2, List.length_append, List.length_reverse]
  omega

theorem dropCount_eq_zero : dropCount operands block = 0 ↔ own = [] := by
  rw [dropCount_of_leaves leaves, List.length_eq_zero_iff]

theorem jumpCode_of_leaves (target : Nat) :
    jumpCode operands block target = (unwind own block.label).toList ++ [.goto target] := by
  by_cases empty : own = []
  · rw [jumpCode, if_pos ((dropCount_eq_zero leaves).mpr empty), unwind, if_pos empty]
    rfl
  · have kept : operands.take block.label.length = block.label.reverse := by
      rw [leaves.2, List.take_left' (by simp)]
    have dropped : (operands.drop block.label.length).take own.length = own := by
      rw [leaves.2, List.drop_left' (by simp), List.take_left]
    rw [jumpCode, if_neg fun zero => empty ((dropCount_eq_zero leaves).mp zero), unwind,
      if_neg empty, dropCount_of_leaves leaves, kept, dropped, List.reverse_reverse]
    rfl

end

theorem stub_sublist (base : Nat) (found : stubs[place]? = some stub) :
    [.label (base + place), .dropKeep stub.own.reverse stub.carried, .goto stub.target] <:+:
      stubsCode base stubs := by
  induction stubs generalizing base place with
  | nil => cases found
  | cons first stubs ih =>
    cases place with
    | zero =>
      cases found
      exact (List.prefix_append _ _).isInfix
    | succ place =>
      have later := ih (base + 1) found
      rw [show base + 1 + place = base + (place + 1) by omega] at later
      exact later.trans ⟨[.label base, .dropKeep first.own.reverse first.carried,
        .goto first.target], [], by simp [stubsCode]⟩

/-- Branches are drawn with the operands that they leave behind. -/
theorem branchCode_of_piece (flow : OperatorFlow source type body shapes index shape instr)
    (drawn : Piece type index shape instr base next piece) :
    BranchCode body index shape instr piece := by
  cases same : instr.operator with
  | branch depth =>
    simp only [OperatorFlow, Piece, BranchCode, same] at flow drawn ⊢
    obtain ⟨_, target, block, _, label, lands, _⟩ := flow
    obtain ⟨_, target', block', own, label', leaves, code⟩ := drawn
    obtain rfl := some.inj (label.symm.trans label')
    obtain rfl := some.inj ((get_of_lands lands).symm.trans leaves.1)
    exact ⟨block, target, leaves.1, heads_of_lands lands,
      code.trans (jumpCode_of_leaves leaves _).symm⟩
  | branchIf depth =>
    simp only [OperatorFlow, Piece, BranchCode, same] at flow drawn ⊢
    obtain ⟨target, block, _, label, _, lands, _⟩ := flow
    obtain ⟨_, target', block', rest, own, label', kinds, leaves, code⟩ := drawn
    obtain rfl := some.inj (label.symm.trans label')
    obtain rfl := some.inj ((get_of_lands lands).symm.trans leaves.1)
    refine ⟨block, target, rest, leaves.1, heads_of_lands lands, kinds, ?_⟩
    rw [code, jumpCode_of_leaves leaves]
    by_cases empty : own = []
    · rw [if_pos ((dropCount_eq_zero leaves).mpr empty), unwind, if_pos empty]
    · rw [if_neg fun zero => empty ((dropCount_eq_zero leaves).mp zero), unwind, if_neg empty]
      rfl
  | branchTable =>
    simp only [OperatorFlow, Piece, BranchCode, same] at flow drawn ⊢
    obtain ⟨_, length, rest, kinds, lands⟩ := flow
    obtain ⟨rest', kinds', drawn⟩ := drawn
    obtain rfl : rest = rest' := tail_eq_of_cons_eq (kinds.symm.trans kinds')
    refine ⟨rest, kinds, ?_⟩
    rcases drawn with ⟨target, depth, block, own, table, depths, leaves, _, code⟩ |
      ⟨routes, _, routed, _, code⟩
    · obtain ⟨target', block', _, found, landing, _⟩ := lands 0 depth (by rw [depths]; rfl)
      rw [table] at found
      obtain rfl := some.inj found
      obtain rfl := some.inj ((get_of_lands landing).symm.trans leaves.1)
      exact .inl ⟨depth, block', _, depths, leaves.1, heads_of_lands landing,
        by rw [code, jumpCode_of_leaves leaves]⟩
    · refine .inr ⟨routes, by rw [code]; rfl, routed.length.trans length, ?_⟩
      intro entry depth listed
      obtain ⟨target, block, _, found, landing, _⟩ := lands entry depth listed
      obtain ⟨block', own, route, leaves, foundRoute, goes⟩ := routed.entry listed found
      obtain rfl := some.inj ((get_of_lands landing).symm.trans leaves.1)
      refine ⟨block, target, route, leaves.1, heads_of_lands landing, foundRoute, ?_⟩
      rcases goes with ⟨empty, direct⟩ | ⟨_, through, stub⟩
      · rw [if_pos ((dropCount_eq_zero leaves).mpr empty)]
        exact direct
      · have filled : own ≠ [] := routed.filled _ (List.mem_of_getElem? stub)
        rw [if_neg fun zero => filled ((dropCount_eq_zero leaves).mp zero),
          jumpCode_of_leaves leaves, unwind, if_neg filled, through, code]
        exact (stub_sublist base stub).trans (List.suffix_cons _ _).isInfix
  | _ => simp only [BranchCode, same]

end Branches

/-! ## The kinds at labels -/

/-- The kinds that belong to the labels of the code of a body, with what they follow from. -/
structure LabelKinds (source : Module) {type : FunctionType} {body : Body}
    {shapes : Nat → Option Shape} (layout : Layout type body shapes)
    (assigned : Nat → List ValueKind) : Prop where
  /-- Every path comes to a label with the kinds that belong to it. -/
  label : ∀ {place label : Nat} {stack : List ValueKind},
    Reaches source (type.params ++ body.locals) layout.code place stack →
    layout.code[place]? = some (.label label) → stack = assigned label
  /-- No path gets stuck. -/
  goesOn : ∀ {place : Nat} {stack : List ValueKind},
    Reaches source (type.params ++ body.locals) layout.code place stack →
    ∃ instr, layout.code[place]? = some instr ∧
      (isExit instr = true ∨
        (∃ after, Turns source (type.params ++ body.locals) stack after instr) ∧
          ∀ label ∈ instr.targets, ∃ there : Nat, layout.code[there]? = some (.label label))
  /-- Every path comes to the code of an instruction with the operands that validation predicts. -/
  operands : ∀ {index : Nat} {shape : Shape} {stack : List ValueKind}, shapes index = some shape →
    Reaches source (type.params ++ body.locals) layout.code (layout.place index) stack →
    stack = shape.operands
  /-- An open block was entered on its parameters and what lies beneath them. Branches to it find
  what it expects, and the same beneath. -/
  block : ∀ {index : Nat} {shape : Shape} {inner outer : List Block} {block : Block},
    shapes index = some shape → shape.blocks = inner ++ block :: outer →
    (block = Block.body type.results ∨
      ∃ opener instr form note, block.opener = some opener ∧
        body.instructions[opener]? = some instr ∧
        instr.operator = .enter form note ∧ source.blockType note = .ok block.type ∧
        block.isLoop = (form == .loop) ∧
        shapes opener = some ⟨Validation.conditionKinds form ++
          (block.type.params.reverse ++ block.beneath), outer⟩) ∧
    ∀ {target : Nat}, Heads body block target → .label target ∈ layout.code →
      assigned target = block.label.reverse ++ block.beneath
  /-- Branches drop what lies between, and nothing else. -/
  branch : ∀ {index : Nat} {shape : Shape} {instr : Instruction}, shapes index = some shape →
    body.instructions[index]? = some instr →
    BranchCode body index shape instr (layout.pieces index)

namespace Layout

variable {source : Module} {type : FunctionType} {body : Body} {shapes : Nat → Option Shape}

variable (typed : BodyTyped source type body shapes)

include typed

theorem place_of_mem (layout : Layout type body shapes) (inside : label < body.instructions.size)
    (defined : .label label ∈ layout.code) :
    layout.code[layout.place label]? = some (.label label) := by
  suffices marked : mark body label = [.label label] by
    have first : (layout.part label)[0]? = some (.label label) := by simp [part, marked]
    have stands := layout.code_get_part inside (lt_length first)
    rwa [first] at stands
  rcases List.mem_append.mp defined with front | last
  · obtain ⟨index, listed, inPart⟩ := List.mem_flatMap.mp front
    have below := List.mem_range.mp listed
    rcases List.mem_append.mp inPart with inMark | inPiece
    · unfold mark at inMark ⊢
      split at inMark
      · obtain rfl : label = index := by simpa using inMark
        rw [if_pos ‹_›]
      · cases inMark
    · -- the labels of pieces lie above those of instructions
      cases shaped : shapes index with
      | none =>
        rw [(layout.dead below shaped).1] at inPiece
        cases inPiece
      | some =>
        obtain ⟨_, found, fits⟩ := typed.fits shaped
        obtain ⟨_, _, taken, _⟩ := labelled_of_piece fits.flow (layout.live shaped found)
        have own := mem_labelsOf.mpr inPiece
        rw [taken, List.mem_range'_1] at own
        have := (layout.labelsOf_before typed (Nat.le_of_lt below)).1
        omega
  · simp at last

theorem exists_labelKinds
    (delimited : Delimited source body shapes) (layout : Layout type body shapes) :
    ∃ assigned, LabelKinds source layout assigned := by
  obtain ⟨runs, pieces⟩ := layout.exists_piecesTyped typed
  have codeTyped := layout.codeTyped pieces typed
  have distinct := (layout.labelsOf_before typed (Nat.le_refl _)).2.2
  rw [← layout.labelsOf_code] at distinct
  have known : ∀ {place label stack},
      layout.code[place]? = some (.label label) → layout.kinds runs place = some stack →
      (layout.kinds runs (layout.code.idxOf (.label label))).getD [] = stack := by
    intro place label stack stands kinds
    have listed := List.idxOf_lt_length_iff.mpr (List.mem_of_getElem? stands)
    have first : layout.code[layout.code.idxOf (.label label)]? = some (.label label) := by
      rw [List.getElem?_eq_getElem listed, List.getElem_idxOf]
    rw [place_of_label distinct first stands, kinds]
    rfl
  have atTarget : ∀ {target shape}, shapes target = some shape →
      .label target ∈ layout.code →
      (layout.kinds runs (layout.code.idxOf (.label target))).getD [] = shape.operands := by
    intro target shape shaped defined
    have inside := lt_of_shapedAt typed ⟨shape.blocks, shaped⟩
    exact known (layout.place_of_mem typed inside defined) (kinds_place pieces typed shaped).1
  refine ⟨fun label => (layout.kinds runs (layout.code.idxOf (.label label))).getD [], ?_⟩
  constructor
  case label =>
    intro place label stack reached stands
    exact (known stands (codeTyped.kinds_of_reaches distinct reached)).symm
  case goesOn =>
    intro place stack reached
    obtain ⟨instr, found, flow⟩ :=
      codeTyped.flow (codeTyped.kinds_of_reaches distinct reached)
    refine ⟨instr, found, ?_⟩
    cases exits : isExit instr with
    | true => exact .inl rfl
    | false =>
      refine .inr ⟨flow.exists_turns exits, fun label listed => ?_⟩
      obtain ⟨_, there, stands, _⟩ := flow.lands_of_target listed
      exact ⟨there, stands⟩
  case operands =>
    intro index shape stack shaped reached
    have kinds := codeTyped.kinds_of_reaches distinct reached
    rw [(kinds_place pieces typed shaped).1] at kinds
    exact (some.inj kinds).symm
  case block =>
    intro index shape _ _ block shaped split
    obtain ⟨_, _, fits⟩ := typed.fits shaped
    refine ⟨?_, fun {target} heads defined => ?_⟩
    · cases opened : block.opener with
      | none =>
        have member : block ∈ shape.blocks := by rw [split]; simp
        exact .inl (eq_body_of_nested fits.nested member opened)
      | some opener =>
        obtain ⟨instr, form, note, found, enters, noted, loops, entered⟩ :=
          delimited.opened shaped split opened
        exact .inr ⟨opener, instr, form, note, rfl, found, enters, noted, loops, entered⟩
    · unfold Heads at heads
      unfold Block.label
      cases loop : block.isLoop with
      | true =>
        rw [if_pos loop] at heads
        obtain ⟨instr, form, note, _, enters, _, loops, entered⟩ :=
          delimited.opened shaped split heads
        have isLoop : form = .loop := by simpa [loop] using loops.symm
        subst isLoop
        exact atTarget entered defined
      | false =>
        rw [if_neg (by simp [loop])] at heads
        obtain ⟨instr, found, finish, scope⟩ := heads
        exact atTarget (delimited.closed shaped split found finish scope) defined
  case branch =>
    intro index shape instr shaped found
    obtain ⟨_, found', fits⟩ := typed.fits shaped
    cases found.symm.trans found'
    exact branchCode_of_piece fits.flow (layout.live shaped found)

end Layout

/-- The analysis of a function gives code in which every label has kinds of its own, whatever path
leads to it. -/
theorem analyze_labelKinds {bytes : List UInt8} {sections : Binary.Sections} {source : Module}
    (core : Binary.Sections.ofBytes? bytes = some sections)
    (parsed : Module.parse bytes = .ok source) {function : Nat}
    (defined : source.importCount ≤ function) (inside : function < source.functionCount) :
    ∃ type body, source.functionType function = some type ∧ source.body function = some body ∧
      ∃ layout : Layout type body (predicted sections function),
        source.analyze function = .ok layout.code.toArray ∧
        ∃ assigned, LabelKinds source layout assigned := by
  obtain ⟨valid, describes⟩ := describes_of_parse core parsed
  obtain ⟨type, body, typeFound, bodyFound⟩ :=
    (moduleTyped_of_valid describes valid).exists_body defined inside
  have typed := bodyTyped_predicted describes valid typeFound bodyFound
  have delimited := delimited_predicted describes valid typeFound bodyFound
  obtain ⟨layout, analyzed⟩ := analyze_eq_ok typeFound bodyFound typed
  exact ⟨type, body, typeFound, bodyFound, layout, analyzed,
    layout.exists_labelKinds typed delimited⟩

/-- A module with a function that leaves a block of one result past an operand of another kind. -/
def unwindBytes : List UInt8 :=
  [0x00, 0x61, 0x73, 0x6d, 0x01, 0x00, 0x00, 0x00, 0x01, 0x05, 0x01, 0x60, 0x00, 0x01, 0x7f,
    0x03, 0x02, 0x01, 0x00,
    0x0a, 0x0d, 0x01, 0x0b, 0x00, 0x02, 0x7f, 0x42, 0x01, 0x41, 0x02, 0x0c, 0x00, 0x0b, 0x0b]

theorem analyze_labelKinds_unwind :
    ∃ sections source type body, Binary.Sections.ofBytes? unwindBytes = some sections ∧
      Module.parse unwindBytes = .ok source ∧
      ∃ layout : Layout type body (predicted sections 0),
        layout.code = [.operator (.constant (.i64 1)), .operator (.constant (.i32 2)),
          .dropKeep [.i64] [.i32], .goto 4, .label 4, .leave [.i32]] ∧
        ∃ assigned, LabelKinds source layout assigned := by
  obtain ⟨sections, core⟩ := isSome_iff_exists.mp
    (by decide +kernel : (Binary.Sections.ofBytes? unwindBytes).isSome = true)
  obtain ⟨source, parsed, imports, functions, listing⟩ := exists_ok (Module.parse unwindBytes)
    (fun source => source.importCount = 0 ∧ source.functionCount = 1 ∧
      (source.analyze 0).toOption.map Array.toList =
        some [.operator (.constant (.i64 1)), .operator (.constant (.i32 2)),
          .dropKeep [.i64] [.i32], .goto 4, .label 4, .leave [.i32]]) (by decide +kernel)
  obtain ⟨type, body, _, _, layout, analyzed, assigned, kinds⟩ := analyze_labelKinds core parsed
    (by omega : source.importCount ≤ 0) (by omega : 0 < source.functionCount)
  refine ⟨sections, source, type, body, core, parsed, layout, ?_, assigned, kinds⟩
  simpa only [analyzed, Except.toOption, map_some, some.injEq] using listing

end TwinEngine.Normal
