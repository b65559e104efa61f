import TwinEngine.Proofs.Normal.Code

/-!
Contract: the analysis of a typed body succeeds, and draws its code piece by piece.

Owns: the stack of kinds that the analysis keeps in front of an instruction, as a function of the
instruction's shape, and the code that one step, and the whole pass, appends.

Does not own: that valid bodies are typed (`Proofs.Typing`).

Skipped code keeps the open scopes and the saved stacks; only the kinds on the stack are those of
the transfer, until the end of the block puts them right or the second arm takes up a saved stack.
-/

namespace TwinEngine.Normal

open Typing Analysis Option State
open List (append_assoc mem_singleton mem_cons range')
open Context (targetScope routeTargets localKind step stepsFrom located run branchTable calleeType
    declaredType globalKind openerType)

variable {index target : Nat} {block : Block} {blocks : List Block} {operands : List ValueKind}

@[simp] theorem ok_bind {α β ε : Type} (value : α) (next : α → Except ε β) :
    (Except.ok value >>= next) = next value := rfl

@[simp] theorem pure_eq_ok {α ε : Type} (value : α) : (pure value : Except ε α) = .ok value := rfl

/-! ## The stack in front of an instruction -/

def scopeId (block : Block) : Scope :=
  match block.opener with
  | none => .function
  | some opener => .block opener

def openScope (block : Block) : OpenScope where
  id := scopeId block
  depth := block.entry.length
  params := block.type.params.length
  restore := block.exit

theorem settled_pending (block : Block) : block.settled.pending = false := rfl

theorem openScope_settled (block : Block) : openScope block.settled = openScope block := rfl

def mirror (operands : List ValueKind) (blocks : List Block) : TypeStack where
  live := operands
  saved := (blocks.filter Block.pending).map Block.entry
  scopes := blocks.map openScope

def stateAt (operands : List ValueKind) (blocks : List Block) (code : Array Normalized)
    (base : Nat) : State :=
  ⟨mirror operands blocks, code, base⟩

private theorem push_append (code : Array Normalized) (first : Normalized)
    (rest : List Normalized) : code.push first ++ rest.toArray =
      code ++ (first :: rest).toArray := by
  apply Array.ext'
  simp

private theorem push_push (code : Array Normalized) (first second : Normalized) :
    (code.push first).push second = code ++ #[first, second] := by
  rfl

section State

variable (kind : ValueKind) (kinds operands : List ValueKind) (blocks : List Block)
  (code : Array Normalized) (base : Nat)

@[simp] theorem stateAt_stack : (stateAt operands blocks code base).stack =
    mirror operands blocks :=
  rfl

@[simp] theorem stateAt_nextLabel : (stateAt operands blocks code base).nextLabel = base := rfl

@[simp] theorem stateAt_code : (stateAt operands blocks code base).code = code := rfl

@[simp] theorem mirror_live : (mirror operands blocks).live = operands := rfl

@[simp] theorem mirror_scopes : (mirror operands blocks).scopes = blocks.map openScope := rfl

@[simp] theorem stateAt_emit (instr : Normalized) :
    (stateAt operands blocks code base).emit instr =
      stateAt operands blocks (code.push instr) base := rfl

@[simp] theorem stateAt_push :
    (stateAt operands blocks code base).push kind =
      stateAt (kind :: operands) blocks code base := rfl

@[simp] theorem stateAt_pop :
    (stateAt (kind :: operands) blocks code base).pop kind =
      .ok (stateAt operands blocks code base) := by
  simp [stateAt, mirror, pop, perform, attempt, TypeStack.pop, Except.map]

@[simp] theorem stateAt_popAny :
    (stateAt (kind :: operands) blocks code base).attempt
        (mirror (kind :: operands) blocks).popAny =
      .ok (kind, stateAt operands blocks code base) := rfl

@[simp] theorem mirror_peek : (mirror (kind :: operands) blocks).peek = .ok kind := rfl

theorem stateAt_popAll :
    (stateAt (kinds ++ operands) blocks code base).popAll kinds =
      .ok (stateAt operands blocks code base) := by
  induction kinds with
  | nil => rfl
  | cons _ kinds ih =>
    rw [List.cons_append, popAll, stateAt_pop]
    exact ih

theorem stateAt_pushAll :
    (stateAt operands blocks code base).pushAll kinds =
      stateAt (kinds.reverse ++ operands) blocks code base := by
  induction kinds generalizing operands with
  | nil => rfl
  | cons kind kinds ih =>
    rw [List.reverse_cons, append_assoc]
    exact ih (kind :: operands)

theorem stateAt_applyType (type : FunctionType) :
    (stateAt (type.params.reverse ++ operands) blocks code base).applyType type =
      .ok (stateAt (type.results.reverse ++ operands) blocks code base) := by
  rw [applyType, stateAt_popAll]
  exact congrArg Except.ok (stateAt_pushAll _ _ _ _ _)

theorem stateAt_emitReturn (context : Analysis.Context) :
    context.emitReturn (stateAt (context.type.results.reverse ++ operands) blocks code base) =
      .ok (stateAt operands blocks (code.push (.leave context.type.results)) base) := by
  rw [Context.emitReturn, stateAt_popAll]
  rfl

theorem stateAt_emitAfter (first : Option Normalized) (second : Normalized) :
    (stateAt operands blocks code base).emitAfter first second =
      stateAt operands blocks (code ++ (first.toList ++ [second]).toArray) base := by
  cases first with
  | none => simp [emitAfter]
  | some => rfl

/-- Entering a block whose parameters are on the stack. Nothing is saved for a second arm yet. -/
theorem stateAt_enter (own : block.opener = some opener) :
    (stateAt block.entry blocks code base).perform
        ((mirror block.entry blocks).enter (.block opener) block.type) =
      .ok (stateAt block.entry (block.settled :: blocks) code base) := by
  have long : ¬ block.entry.length < block.type.params.length := by
    simp [Block.entry]
  have beneath : block.entry.drop block.type.params.length = block.beneath := by
    simp [Block.entry, List.drop_left']
  simp [perform, attempt, TypeStack.enter, long, beneath, Except.map, stateAt, mirror,
    openScope_settled, settled_pending]
  simp [openScope, scopeId, own, Block.exit]

theorem stateAt_exit (own : block.opener = some opener) (unpended : block.pending = false) :
    (stateAt operands (block :: blocks) code base).perform
        ((mirror operands (block :: blocks)).exit (.block opener)) =
      .ok (stateAt operands blocks code base) := by
  simp [perform, attempt, TypeStack.exit, TypeStack.innermost, Except.map, stateAt,
    mirror, openScope, scopeId, own, unpended]

/-- The second arm starts with what was saved, whatever is on the stack. -/
theorem stateAt_unsnapshot (pended : block.pending = true) :
    (stateAt operands (block :: blocks) code base).perform
        (mirror operands (block :: blocks)).unsnapshot =
      .ok (stateAt block.entry (block.settled :: blocks) code base) := by
  simp [perform, attempt, TypeStack.unsnapshot, Except.map, stateAt, mirror, pended,
    openScope_settled, settled_pending]

end State

/-! ## Jumps -/

section Jump

variable {source : Module} {type : FunctionType} {body : Body} {shapes : Nat → Option Shape}

theorem openerType_of_nested (nested : Nested source type body operands blocks)
    (locals : Array ValueKind) (member : block ∈ blocks) (own : block.opener = some opener) :
    openerType ⟨source, type, body, locals⟩ opener = .ok block.type := by
  induction nested with
  | body =>
    rw [mem_singleton] at member
    subst member
    cases own
  | block _ nested _ opens found enters typed _ ih =>
    rcases mem_cons.mp member with same | outer
    · subst same
      rw [own] at opens
      cases opens
      simp [openerType, found, enters, typed]
    · exact ih outer

theorem eq_body_of_nested (nested : Nested source type body operands blocks)
    (member : block ∈ blocks) (own : block.opener = none) : block = Block.body type.results := by
  induction nested with
  | body => exact mem_singleton.mp member
  | block _ nested _ opens _ _ _ _ ih =>
    rcases mem_cons.mp member with same | outer
    · subst same
      cases own.symm.trans opens
    · exact ih outer

theorem exists_opener_of_nested (nested : Nested source type body operands (block :: outer))
    (around : outer ≠ []) :
    ∃ opener, block.opener = some opener := by
  cases nested with
  | body => exact absurd rfl around
  | block _ _ _ opens => exact ⟨_, opens⟩

theorem find_openScope (nested : Nested source type body operands blocks)
    (member : block ∈ blocks) :
    (blocks.map openScope).find? (·.id == scopeId block) = some (openScope block) := by
  induction nested with
  | body =>
    rw [mem_singleton] at member
    simp [member, openScope]
  | @block _ inner outer opener _ _ _ nested earlier opens found enters typed looped
      ih =>
      rcases mem_cons.mp member with same | around
      · simp [same, openScope]
      · have differs : (openScope inner).id ≠ scopeId block := by
          simp only [openScope, scopeId, opens]
          cases own : block.opener with
          | none => simp
          | some other =>
            have below := earlier block around other own
            simp
            omega
        rw [List.map_cons, List.find?_cons_of_neg (by simpa using differs)]
        exact ih around

/-- A block that a branch lands at is one of those around it. -/
theorem mem_of_lands (lands : Lands body shapes index blocks depth target block) :
    block ∈ blocks :=
  List.mem_of_getElem? (get_of_lands lands)

variable (nested : Nested source type body operands blocks) (locals : Array ValueKind)
  (lands : Lands body shapes index blocks depth target block)

include nested locals lands

theorem targetScope_of_lands :
    targetScope ⟨source, type, body, locals⟩ index target =
        .ok (scopeId block, block.type) ∧
      (if index < target then block.type.results.length else block.type.params.length) =
        block.label.length := by
  have member := mem_of_lands lands
  obtain ⟨_, _, lands⟩ := lands
  cases loop : block.isLoop with
  | true =>
    simp only [loop, if_true] at lands
    obtain ⟨_, own, _⟩ := lands
    have backwards : ¬ index < target := by omega
    have typed := openerType_of_nested nested locals member own
    simp [targetScope, backwards, typed, Except.map, scopeId, own, Block.label, loop]
  | false =>
    simp only [loop] at lands
    obtain ⟨forward, _, _, found, _, scope⟩ := lands
    refine ⟨?_, by simp [forward, Block.label, loop]⟩
    simp only [targetScope, forward, if_true, found, scope]
    cases own : block.opener with
    | none =>
      rw [eq_body_of_nested nested member own]
      rfl
    | some opener => simp [openerType_of_nested nested locals member own, Except.map, scopeId, own]

/-- The analysis drops what a jump leaves behind. -/
theorem unwind_of_lands (kinds : rest = block.label.reverse ++ (own ++ block.beneath)) :
    Context.unwind ⟨source, type, body, locals⟩ (mirror rest blocks) index target =
      .ok (unwind own block.label) := by
  have ⟨landed, kept⟩ := targetScope_of_lands nested locals lands
  have found : (mirror rest blocks).scope (scopeId block) = .ok (openScope block) := by
    rw [TypeStack.scope, mirror_scopes, find_openScope nested (mem_of_lands lands)]
  have dropped : (mirror rest blocks).length -
      ((openScope block).depth - (openScope block).params + block.label.length) = own.length := by
    simp [TypeStack.length, openScope, kinds, Block.entry]
    omega
  have ownKinds : (rest.drop block.label.length).take own.length = own := by
    rw [kinds, List.drop_left' (by simp), List.take_left]
  have carried : rest.take block.label.length = block.label.reverse := by
    rw [kinds, List.take_left' (by simp)]
  have empty : own.length = 0 ↔ own = [] := List.length_eq_zero_iff
  simp only [Context.unwind, landed, found, bind, Except.bind, kept, dropped, mirror_live, ownKinds,
    carried, List.reverse_reverse, unwind, empty]
  split <;> rfl

end Jump

/-! ## Branch tables -/

theorem unwind_injective (filled : own ≠ []) (same : unwind own carried = unwind own' carried') :
    own = own' ∧ carried = carried' := by
  unfold unwind at same
  rw [if_neg filled] at same
  by_cases empty : own' = []
  · rw [if_pos empty] at same
    cases same
  · rw [if_neg empty, some.injEq, Normalized.dropKeep.injEq, List.reverse_inj] at same
    exact same

theorem stubsCode_append (base : Nat) (first second : List Stub) :
    stubsCode base (first ++ second) =
      stubsCode base first ++ stubsCode (base + first.length) second := by
  induction first generalizing base with
  | nil => rfl
  | cons _ stubs ih =>
    have shifted : base + 1 + stubs.length = base + (stubs.length + 1) := by omega
    simp [stubsCode, ih, shifted]

section Table

variable (context : Analysis.Context) (stack : TypeStack) (index base : Nat)

/-- A target is reached through a route: directly if nothing has to be dropped, and otherwise
through a stub that drops it. -/
def RoutesTo (stubs : List Stub) (target route : Nat) : Prop :=
  ∀ own carried, context.unwind stack index target = .ok (unwind own carried) →
    own = [] ∧ route = target ∨
      ∃ place, route = base + place ∧ stubs[place]? = some ⟨target, own, carried⟩

variable {context stack index base}

theorem RoutesTo.append (routes : RoutesTo context stack index base stubs target route)
    (more : List Stub) :
    RoutesTo context stack index base (stubs ++ more) target route := by
  intro own carried unwinds
  rcases routes own carried unwinds with direct | ⟨place, same, found⟩
  · exact .inl direct
  · refine .inr ⟨place, same, ?_⟩
    rw [List.getElem?_append_left (lt_length found), found]

/-- A new target gets a route, and a stub if it leaves operands behind. -/
theorem exists_route (routes : List (Nat × Nat)) (stubs : List Stub) (targets : List Nat)
    (unwound : context.unwind stack index target = .ok (unwind own carried))
    (unseen : routes.lookup target = none) :
    ∃ route added, RoutesTo context stack index base (stubs ++ added) target route ∧
      (∀ stub ∈ added, stub.target = target ∧ stub.own ≠ [] ∧
        context.unwind stack index stub.target = .ok (unwind stub.own stub.carried)) ∧
      context.routeTargets stack index (target :: targets)
          ⟨routes, (stubsCode base stubs).toArray, base + stubs.length⟩ =
        context.routeTargets stack index targets
          ⟨(target, route) :: routes, (stubsCode base (stubs ++ added)).toArray,
            base + (stubs ++ added).length⟩ := by
  have agree : ∀ own' carried', context.unwind stack index target = .ok (unwind own' carried') →
      unwind own carried = unwind own' carried' := by
    intro own' carried' other
    rw [unwound] at other
    exact Except.ok.inj other
  by_cases empty : own = []
  · refine ⟨target, [], ?_, by simp, ?_⟩
    · intro own' carried' other
      have same := agree own' carried' other
      refine .inl ⟨?_, rfl⟩
      apply Decidable.byContradiction
      intro filled
      exact filled ((unwind_injective filled same.symm).1.trans empty)
    · have direct : unwind own carried = none := if_pos empty
      rw [direct] at unwound
      simp [routeTargets, unseen, unwound, bind, Except.bind]
  · refine ⟨base + stubs.length, [⟨target, own, carried⟩], ?_, ?_, ?_⟩
    · intro own' carried' other
      have ⟨sameOwn, sameCarried⟩ := unwind_injective empty (agree own' carried' other)
      exact .inr ⟨stubs.length, rfl, by simp [sameOwn, sameCarried]⟩
    · intro stub member
      rw [mem_singleton] at member
      subst member
      exact ⟨rfl, empty, unwound⟩
    · have dropped : unwind own carried = some (.dropKeep own.reverse carried) := if_neg empty
      rw [dropped] at unwound
      simp [routeTargets, unseen, unwound, bind, Except.bind, stubsCode_append, stubsCode,
        Nat.add_assoc]

variable (base) in
/-- Every target gets a route, and stubs are appended for those that need one. -/
theorem routeTargets_eq_ok (targets : List Nat) (routes : List (Nat × Nat)) (stubs : List Stub)
    (unwinds : ∀ target ∈ targets, ∃ own carried,
      context.unwind stack index target = .ok (unwind own carried))
    (known : ∀ target route, routes.lookup target = some route →
      RoutesTo context stack index base stubs target route) :
    ∃ routes' more,
      context.routeTargets stack index targets
          ⟨routes, (stubsCode base stubs).toArray, base + stubs.length⟩ =
        .ok ⟨routes', (stubsCode base (stubs ++ more)).toArray, base + (stubs ++ more).length⟩ ∧
      (∀ target, target ∈ targets ∨ (routes.lookup target).isSome →
        (routes'.lookup target).isSome) ∧
      (∀ target route, routes'.lookup target = some route →
        RoutesTo context stack index base (stubs ++ more) target route) ∧
      ∀ stub ∈ more, stub.target ∈ targets ∧ stub.own ≠ [] ∧
        context.unwind stack index stub.target = .ok (unwind stub.own stub.carried) := by
  induction targets generalizing routes stubs with
  | nil => exact ⟨routes, [], by simp [routeTargets], by simp, by simpa using known, by simp⟩
  | cons target targets ih =>
    have others : ∀ other ∈ targets, ∃ own carried,
        context.unwind stack index other = .ok (unwind own carried) :=
      fun other member => unwinds other (List.mem_cons_of_mem _ member)
    cases seen : routes.lookup target with
    | some route =>
      obtain ⟨routes', more, ran, covered, routed, added⟩ := ih routes stubs others known
      refine ⟨routes', more, by rw [routeTargets, seen]; exact ran, ?_, routed, ?_⟩
      · intro other listed
        rcases listed with member | earlier
        · rcases mem_cons.mp member with same | later
          · exact covered other (.inr (by rw [same, seen]; rfl))
          · exact covered other (.inl later)
        · exact covered other (.inr earlier)
      · intro stub member
        have ⟨listed, filled, unwound⟩ := added stub member
        exact ⟨List.mem_cons_of_mem _ listed, filled, unwound⟩
    | none =>
      obtain ⟨own, carried, unwound⟩ := unwinds target List.mem_cons_self
      -- one more target is routed, and a stub is made for it if it leaves operands behind
      obtain ⟨route, added, routed, made, stepped⟩ := exists_route routes stubs targets unwound seen
      have known' : ∀ other route', ((target, route) :: routes).lookup other = some route' →
          RoutesTo context stack index base (stubs ++ added) other route' := by
        intro other route' found
        rw [List.lookup_cons] at found
        split at found
        · rename_i same
          rw [some.injEq] at found
          rw [← found, eq_of_beq same]
          exact routed
        · exact (known other route' found).append added
      obtain ⟨routes', more, ran, covered, routed, later⟩ := ih _ _ others known'
      refine ⟨routes', added ++ more, ?_, ?_, ?_, ?_⟩
      · rw [stepped, ran, append_assoc]
      · intro other listed
        by_cases same : other = target
        · exact covered other (.inr (by simp [same]))
        · rcases listed with member | earlier
          · exact covered other (.inl ((mem_cons.mp member).resolve_left same))
          · refine covered other (.inr ?_)
            rwa [List.lookup_cons, beq_eq_false_iff_ne.mpr same]
      · rw [← append_assoc]
        exact routed
      · intro stub member
        rcases List.mem_append.mp member with first | rest
        · have ⟨same, filled, unwound⟩ := made stub first
          exact ⟨same ▸ List.mem_cons_self, filled, unwound⟩
        · have ⟨listed, filled, unwound⟩ := later stub rest
          exact ⟨List.mem_cons_of_mem _ listed, filled, unwound⟩

end Table

section Step

variable {source : Module} {type : FunctionType} {body : Body} {shapes : Nat → Option Shape}

def TableLands (body : Body) (shapes : Nat → Option Shape) (index : Nat) (blocks : List Block)
    (rest : List ValueKind) (depths table : List Nat) : Prop :=
  ∀ entry depth : Nat, depths[entry]? = some depth →
    ∃ target block own, table[entry]? = some target ∧
      Lands body shapes index blocks depth target block ∧
      rest = block.label.reverse ++ (own ++ block.beneath)

theorem switch_eq_ok (nested : Nested source type body operands blocks) (locals : Array ValueKind)
    (length : table.length = depths.length)
    (lands : TableLands body shapes index blocks rest depths table) (base : Nat) :
    ∃ routes stubs, Routed blocks rest base depths table routes stubs ∧
      ∃ branches, routeTargets ⟨source, type, body, locals⟩ (mirror rest blocks) index table
          ⟨[], #[], base⟩ = .ok branches ∧
        routes = table.map (fun target => (branches.routes.lookup target).getD target) ∧
        branches.unwinds = (stubsCode base stubs).toArray ∧
        branches.nextLabel = base + stubs.length := by
  have landing : ∀ {entry target : Nat}, table[entry]? = some target →
      ∃ depth block own, depths[entry]? = some depth ∧
        Lands body shapes index blocks depth target block ∧
        rest = block.label.reverse ++ (own ++ block.beneath) := by
    intro entry target found
    have inside : entry < depths.length := length ▸ lt_length found
    have listed := List.getElem?_eq_getElem inside
    obtain ⟨_, block, own, found', lands, kinds⟩ := lands entry _ listed
    cases found.symm.trans found'
    exact ⟨_, block, own, listed, lands, kinds⟩
  have unwinds : ∀ target ∈ table, ∃ own carried,
      Context.unwind ⟨source, type, body, locals⟩ (mirror rest blocks) index target =
        .ok (unwind own carried) := by
    intro target member
    obtain ⟨entry, found⟩ := List.mem_iff_getElem?.mp member
    obtain ⟨depth, block, own, _, lands, kinds⟩ := landing found
    exact ⟨own, block.label, unwind_of_lands nested locals lands kinds⟩
  obtain ⟨routes, stubs, ran, covered, routed, added⟩ :=
    routeTargets_eq_ok base table [] [] unwinds (by simp)
  refine ⟨_, stubs, ⟨by simp, ?_, ?_, fun stub member => (added stub member).2.1⟩, _, ran, rfl, rfl,
    rfl⟩
  · intro entry depth target listed found
    obtain ⟨_, block, own, listed', lands, kinds⟩ := landing found
    cases listed.symm.trans listed'
    obtain ⟨route, known⟩ := isSome_iff_exists.mp
      (covered target (.inl (List.mem_of_getElem? found)))
    refine ⟨block, own, route, ⟨get_of_lands lands, kinds⟩, by simp [found, known], ?_⟩
    exact routed target route known own block.label (unwind_of_lands nested locals lands kinds)
  · intro stub member
    have ⟨listed, filled, unwound⟩ := added stub member
    obtain ⟨entry, found⟩ := List.mem_iff_getElem?.mp listed
    obtain ⟨depth, block, own, listed, lands, kinds⟩ := landing found
    rw [unwind_of_lands nested locals lands kinds, Except.ok.injEq] at unwound
    have ⟨sameOwn, sameCarried⟩ := unwind_injective filled unwound.symm
    exact ⟨entry, depth, block, listed, found, ⟨get_of_lands lands, sameOwn ▸ kinds⟩, sameCarried⟩

theorem branchTable_eq_ok (nested : Nested source type body operands blocks)
    (locals : Array ValueKind) (length : table.length = depths.length) (filled : depths ≠ [])
    (lands : TableLands body shapes index blocks rest depths table) (code : Array Normalized)
    (base : Nat) :
    ∃ piece next,
      ((∃ target depth block own, table = [target] ∧ depths = [depth] ∧
          Leaves blocks rest depth block own ∧ next = base ∧
          piece = .drop .i32 :: ((unwind own block.label).toList ++ [.goto target])) ∨
        ∃ routes stubs, Routed blocks rest base depths table routes stubs ∧
          next = base + stubs.length ∧ piece = .switch routes :: stubsCode base stubs) ∧
      branchTable ⟨source, type, body, locals⟩ (stateAt rest blocks code base) index table =
        .ok (stateAt rest blocks (code ++ piece.toArray) next) := by
  by_cases single : ∃ depth, depths = [depth]
  · obtain ⟨depth, rfl⟩ := single
    obtain ⟨target, block, own, found, landing, kinds⟩ := lands 0 depth rfl
    obtain ⟨_, rfl⟩ := List.length_eq_one_iff.mp length
    cases found
    have unwound := unwind_of_lands nested locals landing kinds
    refine ⟨_, base, .inl ⟨target, depth, block, own, rfl, rfl, ⟨get_of_lands landing, kinds⟩, rfl,
      rfl⟩, ?_⟩
    simp only [branchTable, stateAt_emit, stateAt_stack, unwound, ok_bind, pure_eq_ok,
      stateAt_emitAfter, push_append]
  · obtain ⟨routes, stubs, routed, _, ran, rfl, unwinds, next⟩ :=
      switch_eq_ok nested locals length lands base
    refine ⟨_, _, .inr ⟨_, stubs, routed, rfl, rfl⟩, ?_⟩
    have several : ∀ target, table ≠ [target] := by
      intro target same
      rw [same] at length
      exact single (List.length_eq_one_iff.mp length.symm)
    simp only [branchTable, stateAt_stack, stateAt_nextLabel, stateAt_code, ran, ok_bind,
      pure_eq_ok, unwinds, next, push_append]
    rfl

/-- The analysis carries out the effect of an operator that it passes on as it is. -/
theorem simple_eq_ok
    (effect : Validation.Effect source (type.params ++ body.locals) params results operator)
    (simple : isSimple operator = true) (rest : List ValueKind) (blocks : List Block)
    (code : Array Normalized) (base : Nat) :
    Context.simple ⟨source, type, body, (type.params ++ body.locals).toArray⟩
        (stateAt (params.reverse ++ rest) blocks code base) operator =
      .ok (stateAt (results.reverse ++ rest) blocks code base) := by
  cases operator with
  | localGet index | localSet index =>
    obtain ⟨kind, found, rfl, rfl⟩ := effect
    simp only [Context.simple, localKind, List.getElem?_toArray, found]
    simp
  | globalGet index =>
    obtain ⟨global, found, rfl, rfl⟩ := effect
    simp [Context.simple, globalKind, found]
  | globalSet index =>
    obtain ⟨global, found, _, rfl, rfl⟩ := effect
    simp [Context.simple, globalKind, found, bind, Except.bind]
  | tableGet table | tableSet table | tableGrow table | tableFill table =>
    obtain ⟨kind, found, rfl, rfl⟩ := effect
    simp [Context.simple, Context.tableKind, found, popAll]
  | tableSize table =>
    obtain ⟨kind, _, rfl, rfl⟩ := effect
    simp [Context.simple]
  | tableCopy target origin | tableInit table segment =>
    obtain ⟨_, _, _, _, _, rfl, rfl⟩ := effect
    simp [Context.simple, popAll, bind, Except.bind]
  | memoryInit segment =>
    obtain ⟨_, _, rfl, rfl⟩ := effect
    simp [Context.simple, popAll, bind, Except.bind]
  | elementDrop segment | dataDrop segment | refNull kind | refFunc function =>
    obtain ⟨_, rfl, rfl⟩ := effect
    simp [Context.simple]
  | load kind offset | store kind offset | memorySize | memoryGrow | memoryFill | memoryCopy =>
    obtain ⟨_, rfl, rfl⟩ := effect
    simp [Context.simple, popAll]
  | constant =>
    obtain ⟨rfl, rfl⟩ := effect
    simp [Context.simple]
  | refIsNull =>
    obtain ⟨kind, ref, rfl, rfl⟩ := effect
    simp [Context.simple, ref]
  | numeric operator =>
    obtain ⟨rfl, rfl⟩ := effect
    simp [Context.simple, stateAt_popAll]
  | _ => cases simple

/-- What a step of the analysis makes of an instruction: control goes on behind it with a new shape,
or is taken up again at the end of the innermost block. -/
def Steps (source : Module) (type : FunctionType) (body : Body) (shapes : Nat → Option Shape)
    (index : Nat) (shape : Shape) (instr : Instruction) (code : Array Normalized)
    (base : Nat) : Prop :=
  ∃ piece next, Piece type index shape instr base next piece ∧
    ((∃ after : Shape, step ⟨source, type, body, (type.params ++ body.locals).toArray⟩
            (stateAt shape.operands shape.blocks code base) index instr =
          .ok (stateAt after.operands after.blocks (code ++ piece.toArray) next, false) ∧
        (shapes (index + 1) = some after ∨
          index + 1 = body.instructions.size ∧
            after = ⟨type.results.reverse, [Block.body type.results]⟩)) ∨
      ∃ live,
        step ⟨source, type, body, (type.params ++ body.locals).toArray⟩
            (stateAt shape.operands shape.blocks code base) index instr =
          .ok (stateAt live shape.blocks (code ++ piece.toArray) next, true) ∧
        Resumes body shapes index shape.blocks)

theorem steps_simple (same : instr.operator = operator) (simple : isSimple operator = true)
    (flow : ∃ params results rest,
      Validation.Effect source (type.params ++ body.locals) params results operator ∧
        shape.operands = params.reverse ++ rest ∧
        shapes (index + 1) = some ⟨results.reverse ++ rest, shape.blocks⟩)
    (code : Array Normalized) (base : Nat) :
    Steps source type body shapes index shape instr code base := by
  obtain ⟨params, results, rest, effect, kinds, after⟩ := flow
  have ran := simple_eq_ok effect simple rest shape.blocks code base
  refine ⟨[.operator operator], base, ?_, .inl ⟨_, ?_, .inl after⟩⟩
  · cases operator <;> first | (cases simple; done) | simp [Piece, same]
  · rw [kinds]
    cases operator <;>
      first
      | (cases simple; done)
      | simp [step, same, ran]

theorem steps_of_fits (fits : Fits source type body shapes index shape instr)
    (code : Array Normalized) (base : Nat) :
    Steps source type body shapes index shape instr code base := by
  have flow := fits.flow
  cases same : instr.operator with simp only [OperatorFlow, same] at flow
  | nop =>
    obtain ⟨_, _, rest, ⟨rfl, rfl⟩, kinds, after⟩ := flow
    refine ⟨[], base, by simp [Piece, same], .inl ⟨_, ?_, .inl after⟩⟩
    simp [step, same, kinds]
  | unreachable =>
    refine ⟨[.trap], base, by simp [Piece, same], .inr ⟨shape.operands, ?_, flow⟩⟩
    simp [step, same]
  | enter form =>
    cases form with
    | conditional =>
      obtain ⟨block, target, typed, opens, _, kinds, after, label, _, _, pended⟩ := flow
      have entered := stateAt_enter shape.blocks code base opens
      refine ⟨[.ifZero target], base, ?_, .inl ⟨_, ?_, .inl after⟩⟩
      · simp only [Piece, same, label]
        exact ⟨trivial, target, rfl, rfl⟩
      · simp only [step, same, kinds, stateAt_pop, typed, stateAt_stack, entered, label,
          resolved, Context.isOtherwise, ← pended, ok_bind, pure_eq_ok]
        cases pending : block.pending <;>
          simp [stateAt, mirror, TypeStack.snapshot, emit, pending, openScope_settled,
            settled_pending]
    | block | loop =>
      obtain ⟨block, typed, opens, _, pended, kinds, after⟩ := flow
      have entered := stateAt_enter shape.blocks code base opens
      refine ⟨[], base, by simp [Piece, same], .inl ⟨_, ?_, .inl after⟩⟩
      rw [show block.settled = block by rw [Block.settled, ← pended]] at entered
      simp [step, same, kinds, typed, entered]
  | otherwise =>
    obtain ⟨block, outer, target, blocks, pended, _, after, label, _⟩ := flow
    refine ⟨[.goto target], base, ?_, .inl ⟨_, ?_, .inl after⟩⟩
    · simp only [Piece, same, label]
      exact ⟨trivial, target, rfl, rfl⟩
    · simp [step, same, label, resolved, blocks, stateAt_unsnapshot _ _ _ _ pended]
  | finish =>
    obtain ⟨block, outer, blocks, pended, kinds, ends⟩ := flow
    have piece : Piece type index shape instr base base [] := by simp [Piece, same]
    have scope : instr.scope = block.opener := by simp [fits.scope, blocks]
    have nested := fits.nested
    rw [blocks] at nested
    rcases ends with ⟨rfl, last⟩ | ⟨around, after⟩
    · have whole := eq_body_of_nested_singleton nested
      subst whole
      refine ⟨[], base, piece, .inl ⟨_, ?_, .inr ⟨last, rfl⟩⟩⟩
      simp [step, same, scope, blocks, kinds, Block.body, Block.exit]
    · obtain ⟨opener, opens⟩ := exists_opener_of_nested nested around
      refine ⟨[], base, piece, .inl ⟨_, ?_, .inl after⟩⟩
      simp [step, same, scope, opens, blocks, kinds, stateAt_exit _ _ _ _ opens pended]
  | branch depth =>
    obtain ⟨resumes, target, block, own, label, lands, kinds⟩ := flow
    have unwound := unwind_of_lands fits.nested (type.params ++ body.locals).toArray lands kinds
    refine ⟨(unwind own block.label).toList ++ [.goto target], base, ?_,
      .inr ⟨shape.operands, ?_, resumes⟩⟩
    · simp only [Piece, same, label]
      exact ⟨trivial, target, block, own, rfl, ⟨get_of_lands lands, kinds⟩, rfl⟩
    · simp [step, same, label, resolved, unwound, stateAt_emitAfter]
  | branchIf depth =>
    obtain ⟨target, block, own, label, past, lands, kinds, after⟩ := flow
    have unwound := unwind_of_lands fits.nested (type.params ++ body.locals).toArray lands
      (Eq.refl (block.label.reverse ++ (own ++ block.beneath)))
    cases unwinding : unwind own block.label with
    | none =>
      rw [unwinding] at unwound
      refine ⟨[.ifNonzero target], base, ?_, .inl ⟨_, ?_, .inl after⟩⟩
      · simp only [Piece, same]
        exact ⟨trivial, target, block, _, own, label, kinds, ⟨get_of_lands lands, rfl⟩,
          by rw [unwinding]⟩
      · simp [step, same, kinds, label, resolved, unwound]
    | some unwind =>
      rw [unwinding] at unwound
      refine ⟨[.ifZero (index + 1), unwind, .goto target], base, ?_, .inl ⟨_, ?_, .inl after⟩⟩
      · simp only [Piece, same]
        exact ⟨trivial, target, block, _, own, label, kinds, ⟨get_of_lands lands, rfl⟩,
          by rw [unwinding]⟩
      · simp [step, same, kinds, label, past, resolved, unwound, push_push]
  | branchTable =>
    obtain ⟨resumes, length, rest, kinds, lands⟩ := flow
    obtain ⟨piece, next, drawn, ran⟩ := branchTable_eq_ok fits.nested
      (type.params ++ body.locals).toArray length (by simp) lands code base
    refine ⟨piece, next, ?_, .inr ⟨rest, ?_, resumes⟩⟩
    · simp only [Piece, same]
      exact ⟨rest, kinds, drawn⟩
    · simp [step, same, kinds, ran]
  | leave =>
    obtain ⟨resumes, rest, kinds⟩ := flow
    have left := stateAt_emitReturn rest shape.blocks code base
      ⟨source, type, body, (type.params ++ body.locals).toArray⟩
    refine ⟨[.leave type.results], base, by simp [Piece, same], .inr ⟨rest, ?_, resumes⟩⟩
    simp [step, same, kinds, left]
  | call function =>
    obtain ⟨params, results, rest, effect, kinds, after⟩ := flow
    have callee : source.functionType function = some ⟨params, results⟩ := effect
    have applied := stateAt_applyType rest shape.blocks code base ⟨params, results⟩
    refine ⟨[.call function], base, by simp [Piece, same], .inl ⟨_, ?_, .inl after⟩⟩
    simp [step, same, kinds, calleeType, callee, applied]
  | callIndirect table typeIndex =>
    obtain ⟨_, _, rest, ⟨callee, kind, found, _, _, rfl, rfl⟩, kinds, after⟩ := flow
    have applied := stateAt_applyType rest shape.blocks code base callee
    refine ⟨[.callIndirect typeIndex table], base, by simp [Piece, same], .inl ⟨_, ?_, .inl after⟩⟩
    simp [step, same, kinds, declaredType, found, applied]
  | tailCall function =>
    obtain ⟨resumes, callee, rest, found, results, kinds⟩ := flow
    have applied := stateAt_applyType rest shape.blocks code base callee
    have left := stateAt_emitReturn rest shape.blocks (code.push (.call function)) base
      ⟨source, type, body, (type.params ++ body.locals).toArray⟩
    refine ⟨[.call function, .leave type.results], base, by simp [Piece, same],
      .inr ⟨rest, ?_, resumes⟩⟩
    rw [results] at applied
    simp [step, same, kinds, calleeType, found, applied, left, push_push]
  | tailCallIndirect table typeIndex =>
    obtain ⟨resumes, callee, kind, rest, found, _, _, results, kinds⟩ := flow
    have applied := stateAt_applyType rest shape.blocks code base callee
    have left := stateAt_emitReturn rest shape.blocks (code.push (.callIndirect typeIndex table))
      base ⟨source, type, body, (type.params ++ body.locals).toArray⟩
    refine ⟨[.callIndirect typeIndex table, .leave type.results], base, by simp [Piece, same],
      .inr ⟨rest, ?_, resumes⟩⟩
    rw [results] at applied
    simp [step, same, kinds, declaredType, found, applied, left, push_push]
  | drop =>
    obtain ⟨_, _, rest, ⟨kind, rfl, rfl⟩, kinds, after⟩ := flow
    refine ⟨[.drop kind], base, ?_, .inl ⟨_, ?_, .inl after⟩⟩
    · simp only [Piece, same]
      exact ⟨trivial, kind, rest, kinds, rfl⟩
    · simp [step, same, kinds]
  | select =>
    obtain ⟨_, _, rest, ⟨kind, rfl, rfl⟩, kinds, after⟩ := flow
    refine ⟨[.select kind], base, ?_, .inl ⟨_, ?_, .inl after⟩⟩
    · simp only [Piece, same]
      exact ⟨trivial, kind, rest, kinds, rfl⟩
    · simp [step, same, kinds, popAll]
  | selectKind kind =>
    obtain ⟨_, _, rest, ⟨rfl, rfl⟩, kinds, after⟩ := flow
    refine ⟨[.select kind], base, ?_, .inl ⟨_, ?_, .inl after⟩⟩
    · simp only [Piece, same]
      exact ⟨trivial, kind, rest, kinds, rfl⟩
    · simp [step, same, kinds, popAll]
  | localTee place =>
    obtain ⟨_, _, rest, ⟨kind, found, rfl, rfl⟩, kinds, after⟩ := flow
    refine ⟨[.localTee place kind], base, ?_, .inl ⟨_, ?_, .inl after⟩⟩
    · simp only [Piece, same]
      exact ⟨trivial, kind, rest, kinds, rfl⟩
    · simp only [step, same, localKind, List.getElem?_toArray, found]
      simp [kinds]
  | _ => exact steps_simple same rfl flow code base

/-! ## The whole pass -/

/-- The parts that the pass draws from an index on, and the labels that are free in front of each
instruction. -/
structure DrawnFrom (type : FunctionType) (body : Body) (shapes : Nat → Option Shape)
    (index base : Nat) (pieces : Nat → List Normalized) (bases : Nat → Nat) : Prop where
  start : bases index = base
  live : ∀ {place : Nat} {shape : Shape} {instr : Instruction}, index ≤ place →
    shapes place = some shape → body.instructions[place]? = some instr →
    Piece type place shape instr (bases place) (bases (place + 1)) (pieces place)
  dead : ∀ {place : Nat}, index ≤ place → place < body.instructions.size → shapes place = none →
    pieces place = [] ∧ bases (place + 1) = bases place

/-- Put one more part in front. -/
theorem DrawnFrom.cons
    (drawn : DrawnFrom type body shapes (index + 1) next pieces bases) (piece : List Normalized)
    (live : ∀ {shape instr}, shapes index = some shape →
      body.instructions[index]? = some instr →
      Piece type index shape instr base next piece)
    (dead : shapes index = none → piece = [] ∧ next = base) :
    DrawnFrom type body shapes index base (fun place =>
      if place = index then piece else pieces place)
      (fun place => if place = index then base else bases place) := by
  have later : ∀ place, index ≤ place → place ≠ index → index + 1 ≤ place ∧ place + 1 ≠ index := by
    omega
  refine ⟨by simp, ?_, ?_⟩
  · intro place shape instr from_ typed found
    by_cases here : place = index
    · subst here
      simpa [drawn.start] using live typed found
    · have ⟨after, other⟩ := later place from_ here
      simpa [here, other] using drawn.live after typed found
  · intro place from_ inside untyped
    by_cases here : place = index
    · subst here
      simpa [drawn.start] using dead untyped
    · have ⟨after, other⟩ := later place from_ here
      simpa [here, other] using drawn.dead after inside untyped

/-- Where the pass stands in front of an index: at an instruction with a shape, behind the last one,
or in code that it skips up to the end of the innermost block or of its first arm. -/
def Stands (type : FunctionType) (body : Body) (shapes : Nat → Option Shape) (index : Nat) :
    Option Nat → List ValueKind → List Block → Prop
  | none, operands, blocks =>
    shapes index = some ⟨operands, blocks⟩ ∨
      index = body.instructions.size ∧ operands = type.results.reverse ∧
        blocks = [Block.body type.results]
  | some depth, _, blocks =>
    ∃ (next : Nat) (instr : Instruction) (block : Block) (outer : List Block),
      blocks = block :: outer ∧ depth = outer.length ∧ index ≤ next ∧
      body.instructions[next]? = some instr ∧
      (instr.operator = .otherwise ∨ instr.operator = .finish) ∧
      instr.depth = outer.length ∧ shapes next = some ⟨block.exit, blocks⟩ ∧
      ∀ between, index ≤ between → between < next → shapes between = none ∧
        ∃ skipped, body.instructions[between]? = some skipped ∧
          isSkipped outer.length skipped = true

def Draws (source : Module) (type : FunctionType) (body : Body) (shapes : Nat → Option Shape)
    (function index : Nat) (rest : List Instruction) (transfer : Option Nat)
    (operands : List ValueKind) (blocks : List Block) : Prop :=
  ∀ code base, ∃ pieces bases, DrawnFrom type body shapes index base pieces bases ∧
    stepsFrom ⟨source, type, body, (type.params ++ body.locals).toArray⟩ function
        (labelMarks body.instructions) rest index transfer (stateAt operands blocks code base) =
      .ok (stateAt type.results.reverse [Block.body type.results]
        (code ++ ((List.range' index rest.length).flatMap
          fun place => mark body place ++ pieces place).toArray)
        (bases (index + rest.length)))

theorem stateAt_mark (operands : List ValueKind) (blocks : List Block) (code : Array Normalized)
    (base index : Nat) :
    (if (labelMarks body.instructions).getD index false then
        (stateAt operands blocks code base).emit (.label index)
      else stateAt operands blocks code base) =
      stateAt operands blocks (code ++ (mark body index).toArray) base := by
  unfold mark
  split <;> simp

variable (body) in
theorem append_parts (code : Array Normalized) (index count : Nat) (piece : List Normalized)
    (pieces : Nat → List Normalized) :
    code ++ (mark body index).toArray ++ piece.toArray ++
        ((List.range' (index + 1) count).flatMap
          fun place => mark body place ++ pieces place).toArray =
      code ++ ((List.range' index (count + 1)).flatMap fun place =>
        mark body place ++ if place = index then piece else pieces place).toArray := by
  have later : (range' (index + 1) count).flatMap
        (fun place => mark body place ++ if place = index then piece else pieces place) =
      (range' (index + 1) count).flatMap fun place => mark body place ++ pieces place := by
    rw [List.flatMap_def, List.flatMap_def]
    refine congrArg List.flatten (List.map_congr_left fun place member => ?_)
    have behind : place ≠ index := by
      have := List.mem_range'_1.mp member
      omega
    rw [if_neg behind]
  rw [List.range'_succ, List.flatMap_cons, later]
  simp

theorem draws_step (found : body.instructions[index]? = some instr)
    (typed : shapes index = some shape)
    (fits : Fits source type body shapes index shape instr)
    (behind : ∀ {transfer operands blocks},
      Stands type body shapes (index + 1) transfer operands blocks →
      Draws source type body shapes function (index + 1) rest transfer operands blocks)
    (code : Array Normalized) (base : Nat) :
    ∃ pieces bases, DrawnFrom type body shapes index base pieces bases ∧
      (do
        let (state, transfers) ←
          located ⟨source, type, body, (type.params ++ body.locals).toArray⟩ function index
            (step ⟨source, type, body, (type.params ++ body.locals).toArray⟩
              (stateAt shape.operands shape.blocks (code ++ (mark body index).toArray) base) index
              instr)
        stepsFrom ⟨source, type, body, (type.params ++ body.locals).toArray⟩ function
          (labelMarks body.instructions) rest (index + 1)
          (if transfers then some instr.depth else none) state) =
      .ok (stateAt type.results.reverse [Block.body type.results]
        (code ++ ((List.range' index (rest.length + 1)).flatMap
          fun place => mark body place ++ pieces place).toArray)
        (bases (index + (rest.length + 1)))) := by
  obtain ⟨piece, next, drawn, stepped⟩ :=
    steps_of_fits fits (code ++ (mark body index).toArray) base
  have live : ∀ {shape' instruction'}, shapes index = some shape' →
      body.instructions[index]? = some instruction' →
      Piece type index shape' instruction' base next piece := by
    intro shape' instruction' typed' found'
    rw [typed, some.injEq] at typed'
    rw [found, some.injEq] at found'
    rw [← typed', ← found']
    exact drawn
  have dead : shapes index = none → piece = [] ∧ next = base := by
    intro untyped
    cases typed.symm.trans untyped
  have apart : index + (rest.length + 1) ≠ index := by omega
  have count : index + 1 + rest.length = index + (rest.length + 1) := by omega
  rcases stepped with ⟨after, ran, stands⟩ | ⟨operands, ran, resumes⟩
  · have stands : Stands type body shapes (index + 1) none after.operands after.blocks := by
      rcases stands with shaped | ⟨last, same⟩
      · exact .inl shaped
      · exact .inr ⟨last, by rw [same], by rw [same]⟩
    obtain ⟨pieces, bases, parts, went⟩ :=
      behind stands (code ++ (mark body index).toArray ++ piece.toArray) next
    refine ⟨_, _, parts.cons piece live dead, ?_⟩
    rw [ran]
    simp only [located, bind, Except.bind, Bool.false_eq_true, if_false, went, append_parts,
      apart, count]
  · have stands : Stands type body shapes (index + 1) (some instr.depth) operands
        shape.blocks := by
      obtain ⟨next, last, block, outer, blocks, later, foundLast, ends, depth, shaped, between⟩ :=
        resumes
      have depth' : instr.depth = outer.length := by
        have := fits.depth
        rw [blocks, List.length_cons] at this
        omega
      exact ⟨next, last, block, outer, blocks, depth', later, foundLast, ends, depth, shaped,
        fun place after before => between place (by omega) before⟩
    obtain ⟨pieces, bases, parts, went⟩ :=
      behind stands (code ++ (mark body index).toArray ++ piece.toArray) next
    refine ⟨_, _, parts.cons piece live dead, ?_⟩
    rw [ran]
    simp only [located, bind, Except.bind, if_true, went, append_parts, apart, count, if_false]

/-- Where control is taken up again, the step goes as from the shape there. -/
theorem resume_then_step (operands : List ValueKind)
    (fits : Fits source type body shapes index ⟨block.exit, block :: outer⟩ instr)
    (ends : instr.operator = .otherwise ∨ instr.operator = .finish)
    (code : Array Normalized) (base : Nat) :
    ∃ state, resume (stateAt operands (block :: outer) code base) instr = .ok state ∧
      step ⟨source, type, body, (type.params ++ body.locals).toArray⟩ state index
          instr =
        step ⟨source, type, body, (type.params ++ body.locals).toArray⟩
          (stateAt block.exit (block :: outer) code base) index instr := by
  rcases ends with same | same
  · have flow := fits.flow
    simp only [OperatorFlow, same] at flow
    obtain ⟨_, _, _, blocks, pended, _⟩ := flow
    cases blocks
    refine ⟨_, by rw [resume, same], ?_⟩
    simp only [step, same, stateAt_stack, stateAt_unsnapshot _ _ _ _ pended]
  · refine ⟨stateAt block.exit (block :: outer) code base, ?_, rfl⟩
    have scope : instr.scope = block.opener := fits.scope
    have id : ((block.opener.map Scope.block).getD .function) = scopeId block := by
      unfold scopeId
      cases block.opener <;> rfl
    rw [resume, same]
    simp [perform, attempt, TypeStack.restore, Except.map, stateAt, mirror, openScope, scope, id]

variable (typed : BodyTyped source type body shapes) (function : Nat)

include typed function

/-- The pass goes through from wherever it stands. -/
theorem draws_of_stands
    (rest : List Instruction) (split : body.instructions.toList.drop index = rest)
    (stands : Stands type body shapes index transfer operands blocks) :
    Draws source type body shapes function index rest transfer operands blocks := by
  induction rest generalizing index transfer operands blocks with
  | nil =>
    have past : body.instructions.size ≤ index := by
      simpa using List.drop_eq_nil_iff.mp split
    have none_past : ∀ place, index ≤ place → body.instructions[place]? = none := by
      intro place from_
      exact Array.getElem?_eq_none (by omega)
    intro code base
    refine ⟨fun _ => [], fun _ => base, ⟨rfl, ?_, ?_⟩, ?_⟩
    · intro place _ instr from_ _ found
      rw [none_past place from_] at found
      cases found
    · intro place from_ _
      omega
    · cases transfer with
      | none =>
        rcases stands with shaped | ⟨_, rfl, rfl⟩
        · obtain ⟨instr, found, _⟩ := typed.fits shaped
          rw [none_past index (Nat.le_refl _)] at found
          cases found
        · simp [stepsFrom]
      | some depth =>
        obtain ⟨next, instr, _, _, _, _, later, found, _⟩ := stands
        rw [none_past next later] at found
        cases found
  | cons instr rest ih =>
    have found : body.instructions[index]? = some instr := by
      have first := congrArg List.head? split
      simpa using first
    have split : body.instructions.toList.drop (index + 1) = rest := by
      rw [← List.drop_drop, split]
      rfl
    have behind : ∀ {transfer operands blocks},
        Stands type body shapes (index + 1) transfer operands blocks →
        Draws source type body shapes function (index + 1) rest transfer operands blocks :=
      fun stands => ih split stands
    intro code base
    cases transfer with
    | none =>
      rcases stands with shaped | ⟨last, _⟩
      · obtain ⟨_, found', fits⟩ := typed.fits shaped
        cases found.symm.trans found'
        rw [stepsFrom, stateAt_mark]
        exact draws_step found shaped fits behind code base
      · rw [last, Array.getElem?_eq_none (Nat.le_refl _)] at found
        cases found
    | some depth =>
      obtain ⟨next, last, block, outer, rfl, rfl, later, foundLast, ends, depth, shaped,
        between⟩ := stands
      by_cases here : index = next
      · -- control is taken up again
        subst here
        cases found.symm.trans foundLast
        obtain ⟨_, found', fits⟩ := typed.fits shaped
        cases found.symm.trans found'
        have goesOn : isSkipped outer.length instr = false := by
          rcases ends with same | same <;> simp [isSkipped, depth, same]
        obtain ⟨_, resumed, stepped⟩ :=
          resume_then_step operands fits ends (code ++ (mark body index).toArray) base
        obtain ⟨pieces, bases, parts, went⟩ := draws_step found shaped fits behind code base
        refine ⟨pieces, bases, parts, ?_⟩
        rw [← stepped] at went
        rw [stepsFrom, stateAt_mark]
        simp only [goesOn, Bool.false_eq_true, if_false, resumed]
        exact went
      · -- one more instruction is skipped
        obtain ⟨untyped, _, found', skipped⟩ := between index (Nat.le_refl _) (by omega)
        cases found.symm.trans found'
        have stands : Stands type body shapes (index + 1) (some outer.length) operands
            (block :: outer) :=
          ⟨next, last, block, outer, rfl, rfl, by omega, foundLast, ends, depth, shaped,
            fun place _ before => between place (by omega) before⟩
        obtain ⟨pieces, bases, parts, went⟩ :=
          behind stands (code ++ (mark body index).toArray) base
        refine ⟨_, _, parts.cons [] (fun typed' _ => ?_) (fun _ => ⟨rfl, rfl⟩), ?_⟩
        · cases untyped.symm.trans typed'
        · have count : index + 1 + rest.length = index + (rest.length + 1) := by omega
          have apart : index + (rest.length + 1) ≠ index := by omega
          have same := append_parts body code index rest.length [] pieces
          rw [Array.append_empty] at same
          rw [stepsFrom, stateAt_mark]
          simp only [skipped, if_true, went, List.length_cons, count, same, apart, if_false]

theorem run_eq_ok :
    ∃ layout : Layout type body shapes,
      run ⟨source, type, body, (type.params ++ body.locals).toArray⟩ function =
        .ok layout.code.toArray := by
  have stands : Stands type body shapes 0 none [] [Block.body type.results] := .inl typed.start
  obtain ⟨pieces, bases, parts, went⟩ :=
    draws_of_stands typed function _ (List.drop_zero) stands #[] body.instructions.size
  refine ⟨⟨pieces, bases, parts.start, fun typed found => parts.live (Nat.zero_le _) typed found,
    fun inside untyped => parts.dead (Nat.zero_le _) inside untyped⟩, ?_⟩
  have entered : perform ⟨.empty, #[], body.instructions.size⟩
      (TypeStack.empty.enter .function ⟨[], type.results⟩) =
      .ok (stateAt [] [Block.body type.results] #[] body.instructions.size) := by
    simp [perform, attempt, TypeStack.enter, TypeStack.empty, Except.map, stateAt, mirror,
      Block.body, openScope, scopeId, Block.entry, Block.exit]
  have left := fun code base => stateAt_emitReturn [] [Block.body type.results] code base
    ⟨source, type, body, (type.params ++ body.locals).toArray⟩
  have verified : (mirror [] [Block.body type.results]).verifyEmpty = .ok () := by
    simp [TypeStack.verifyEmpty, mirror, Block.body, openScope, scopeId]
  simp only [List.append_nil] at left
  simp only [run, Array.emptyWithCapacity_eq, Context.bodyType, entered, located, bind, Except.bind,
    went, left, stateAt_stack, stateAt_code, verified, pure, Except.pure, Except.ok.injEq]
  apply Array.ext'
  simp [Layout.code, Layout.before, List.range_eq_range']
  rfl

end Step

theorem analyze_eq_ok (typeFound : source.functionType function = some type)
    (bodyFound : source.body function = some body) (typed : BodyTyped source type body shapes) :
    ∃ layout : Layout type body shapes, source.analyze function = .ok layout.code.toArray := by
  rw [Module.analyze, bodyFound, typeFound]
  exact run_eq_ok typed function

end TwinEngine.Normal
