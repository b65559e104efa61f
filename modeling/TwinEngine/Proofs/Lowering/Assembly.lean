import TwinEngine.Proofs.Lowering.Segments

/-!
Contract: the code of a whole unit.

Owns: the layout of locals in a frame, the prologue, the segments of all instructions one after the
other, and the loaded form of the unit that they make.

Does not own: what the code does to the operand stack (`Proofs.Lowering.Depths`).
-/

namespace TwinEngine.Lowering

open Machine hiding Instruction
open ValueKind (slotCount)

/-! ## Frames -/

/-- Every local has the slots behind those of the locals before it. -/
structure FrameLayout (kinds : List ValueKind) (locals : Array (ValueKind × UInt16))
    (frameSlots : Nat) : Prop where
  size : locals.size = kinds.length
  get : ∀ {index : Nat} {kind : ValueKind}, kinds[index]? = some kind →
    ∃ slot, locals[index]? = some (kind, slot) ∧
      slot.toNat = slotCount (kinds.take index)
  slots : frameSlots = slotCount kinds
  small : frameSlots ≤ 65535

theorem slotCount_append (left right : List ValueKind) : slotCount (left ++ right) =
      slotCount left + slotCount right := by
  simp [slotCount]

theorem slotCount_cons (kind : ValueKind) (kinds : List ValueKind) :
    slotCount (kind :: kinds) = kind.slots + slotCount kinds := by
  simp [slotCount]

theorem slotCount_reverse (kinds : List ValueKind) : slotCount kinds.reverse = slotCount kinds := by
  simp [slotCount]

def entriesFrom : Nat → List ValueKind → List (ValueKind × UInt16)
  | _, [] => []
  | next, kind :: kinds => (kind, UInt16.ofNat next) :: entriesFrom (next + kind.slots) kinds

theorem layoutFrom_eq (function : Nat) (kinds : List ValueKind) (next : Nat)
    (done : Array (ValueKind × UInt16)) : (next + slotCount kinds ≤ 65535 ∧
      layoutFrom function kinds next done =
        .ok (done ++ (entriesFrom next kinds).toArray, next + slotCount kinds)) ∨
    ∃ error, layoutFrom function kinds next done = .error error ∧ Refusal error := by
  induction kinds generalizing next done with
  | nil =>
    rw [layoutFrom]
    by_cases large : next > 65535
    · exact .inr ⟨_, if_pos large, .localSlots _ _⟩
    · rw [if_neg large]
      exact .inl ⟨by simp [slotCount]; omega, by simp [slotCount, entriesFrom]⟩
  | cons kind kinds ih =>
    rw [layoutFrom, slotCount_cons]
    by_cases large : next > 65535
    · exact .inr ⟨_, if_pos large, .localSlots _ _⟩
    · rw [if_neg large]
      rcases ih (next + kind.slots) (done.push (kind, UInt16.ofNat next)) with
        ⟨small, done⟩ | refused
      · refine .inl ⟨by omega, ?_⟩
        rw [done, Nat.add_assoc]
        simp [entriesFrom]
      · exact .inr refused

theorem getElem?_entriesFrom (kinds : List ValueKind) (next index : Nat) :
    (entriesFrom next kinds)[index]? = kinds[index]?.map fun kind =>
      (kind, UInt16.ofNat (next + slotCount (kinds.take index))) := by
  induction kinds generalizing next index with
  | nil => rfl
  | cons kind kinds ih =>
    cases index with
    | zero => simp [entriesFrom, slotCount]
    | succ index =>
      rw [entriesFrom, List.getElem?_cons_succ, ih, List.take_succ_cons,
        slotCount_cons, List.getElem?_cons_succ, Nat.add_assoc]

theorem length_entriesFrom (kinds : List ValueKind) (next : Nat) :
    (entriesFrom next kinds).length = kinds.length := by
  induction kinds generalizing next with
  | nil => rfl
  | cons _ kinds ih => simp [entriesFrom, ih]

theorem slotCount_take_le (kinds : List ValueKind) (index : Nat) :
    slotCount (kinds.take index) ≤ slotCount kinds := by
  conv => rhs; rw [← List.take_append_drop index kinds, slotCount_append]
  omega

theorem frameLayout_entriesFrom (small : slotCount kinds ≤ 65535) :
    FrameLayout kinds (entriesFrom 0 kinds).toArray (slotCount kinds) := by
  refine ⟨by simp [length_entriesFrom], ?_, rfl, small⟩
  intro index _ found
  refine ⟨UInt16.ofNat (slotCount (kinds.take index)), ?_, ?_⟩
  · simp [getElem?_entriesFrom, found]
  · have := slotCount_take_le kinds index
    rw [UInt16.toNat_ofNat']
    omega

theorem context_outcome (typeFound : source.functionType index = some type)
    (bodyFound : source.body index = some body) :
    (∃ context, Context.of source index = .ok context ∧ context.source = source ∧
      context.signature = type ∧
      FrameLayout (type.params ++ body.locals) context.locals context.frameSlots) ∨
    ∃ error, Context.of source index = .error error ∧ Refusal error := by
  rw [Context.of, typeFound, bodyFound]
  rcases layoutFrom_eq index (type.params ++ body.locals) 0 #[] with
    ⟨small, done⟩ | ⟨error, failed, refusal⟩
  · simp only [done, Nat.zero_add, Array.empty_append, bind, Except.bind]
    exact .inl ⟨_, rfl, rfl, rfl, frameLayout_entriesFrom (by omega)⟩
  · simp only [failed, bind, Except.bind]
    exact .inr ⟨error, rfl, refusal⟩

/-! ## The prologue -/

def paramStores (context : Context) : Nat → List Action
  | 0 => []
  | count + 1 =>
    ((context.locals[count]?).map fun entry => .store (widthOf entry.1) entry.2).toList ++
      paramStores context count

def nullStores (locals : List (ValueKind × UInt16)) : List Action :=
  locals.flatMap fun entry =>
    if entry.1.isRef then [.const64 nullPayload, .store .two entry.2] else []

/-- The code that spreads boxed arguments over the locals. -/
def Unpacks (context : Context) (signatures : Array FunctionType) (actions : List Action) : Prop :=
  match Convention.of context.signature with
  | .slots => actions = []
  | .boxed => ∃ signature, Pooled signatures signature context.signature ∧
      actions = .load .one 0 :: .unbox .params signature ::
        paramStores context context.signature.params.length

/-- The code in front of that of the body. -/
def Prologue (context : Context) (signatures : Array FunctionType) (actions : List Action) : Prop :=
  ∃ first, Unpacks context signatures first ∧
    actions = first ++ nullStores (context.locals.toList.drop context.signature.params.length)

section Prologue

variable {context : Context} {lowered : Segment} {marks : List (Nat × Nat)} {emitter : Emitter}

theorem storeParams_eq (emitter : Emitter) (few : count ≤ context.locals.size) :
    storeParams context count emitter = .ok (emitAll emitter (paramStores context count)) := by
  induction count generalizing emitter with
  | zero => rfl
  | succ count ih =>
    have found := Array.getElem?_eq_getElem (Nat.lt_of_succ_le few)
    rw [storeParams, localSet, Context.local, found, paramStores, found]
    exact ih _ (by omega)

theorem defaultLocals_eq (locals : List (ValueKind × UInt16)) (emitter : Emitter) :
    defaultLocals locals emitter = emitAll emitter (nullStores locals) := by
  induction locals generalizing emitter with
  | nil => rfl
  | cons entry locals ih =>
    have step := ih
      (if entry.1.isRef then (emitter.emit (.const64 nullPayload)).emit (.store .two entry.2)
        else emitter)
    refine step.trans ?_
    rw [nullStores, nullStores, List.flatMap_cons, emitAll, emitAll, List.foldl_append]
    cases entry.1.isRef <;> rfl

theorem emitAll_append (emitter : Emitter) (left right : List Action) :
    emitAll (emitAll emitter left) right = emitAll emitter (left ++ right) := by
  rw [emitAll, emitAll, emitAll, List.foldl_append]

theorem Building.prologue (building : Building context.frameSlots lowered marks emitter)
    (few : context.signature.params.length ≤ context.locals.size) :
    (∃ actions after, Lowering.prologue context emitter = .ok after ∧
      Building context.frameSlots (lowered ++ plain actions) marks after ∧
      Prologue context after.signatures actions) ∨
    ∃ error, Lowering.prologue context emitter = .error error ∧ Refusal error := by
  have finish : ∀ {grown} first,
      Building context.frameSlots lowered marks grown → Unpacks context grown.signatures first →
      ∃ actions after,
        Except.ok (defaultLocals (context.locals.toList.drop context.signature.params.length)
          (Lowering.emitAll grown first)) = (.ok after : Except Error Emitter) ∧
        Building context.frameSlots (lowered ++ plain actions) marks after ∧
        Prologue context after.signatures actions := by
    intro grown first grows unpacks
    refine ⟨_, _, rfl, ?_, ⟨first, ?_, rfl⟩⟩
    · rw [defaultLocals_eq, emitAll_append]
      exact grows.emitAll _
    · rw [defaultLocals_eq, emitAll_append, (sameFrame_emitAll grown _).signatures]
      exact unpacks
  unfold Lowering.prologue
  cases convention : Convention.of context.signature with
  | slots => exact .inl (finish [] building (by rw [Unpacks, convention]))
  | boxed =>
    rcases building.signature context.signature with
      ⟨signature, grown, found, grows, -, -, -, pooled⟩ | refused
    · simp only [found, bind, Except.bind, pure, Except.pure]
      rw [storeParams_eq _ few]
      refine .inl (finish (.load .one 0 :: .unbox .params signature :: _) grows ?_)
      rw [Unpacks, convention]
      exact ⟨signature, pooled, rfl⟩
    · simp only [refused, bind, Except.bind]
      exact .inr ⟨_, rfl, .signaturePool⟩

end Prologue

/-! ## Instructions one after the other -/

variable {context : Context} {instr : Normalized} {segment : Segment}

theorem Lowers.mono (extends_ : Extends before after)
    (lowers : Lowers context before.signatures before.scratch instr segment) :
    Lowers context after.signatures after.scratch instr segment := by
  cases instr with
  | leave =>
    simp only [Lowers] at lowers ⊢
    split
    · rename_i several
      rw [if_pos several] at lowers
      obtain ⟨signature, pooled, code⟩ := lowers
      exact ⟨signature, extends_.signatures pooled, code⟩
    · rename_i several
      rwa [if_neg several] at lowers
  | call =>
    obtain ⟨type, signature, typed, pooled, code⟩ := lowers
    exact ⟨type, signature, typed, extends_.signatures pooled, code⟩
  | callIndirect =>
    obtain ⟨type, signature, boxes, typed, pooled, boxed, code⟩ := lowers
    refine ⟨type, signature, boxes, typed, extends_.signatures pooled, ?_, code⟩
    unfold Boxes at boxed ⊢
    split
    · rename_i convention
      rwa [convention] at boxed
    · rename_i convention
      rw [convention] at boxed
      obtain ⟨slot, scratch, code⟩ := boxed
      exact ⟨slot, extends_.scratch scratch, code⟩
  | label | goto | ifZero | ifNonzero | switch | dropKeep | trap | drop | select | localTee
  | operator => exact lowers

def marksAlong (index : Nat) (marks : List (Nat × Nat)) :
    List Normalized → List Segment → List (Nat × Nat)
  | instr :: code, segment :: segments =>
    marksAlong (index + segment.length) (marksAfter index marks instr) code segments
  | _, _ => marks

theorem lookup_marksAlong (length : segments.length = code.length) (index : Nat)
    (marks : List (Nat × Nat)) (name : Nat) :
    (.label name ∉ code → (marksAlong index marks code segments).lookup name = marks.lookup name) ∧
    ∀ {place}, code[place]? = some (.label name) → code.count (.label name) = 1 →
      (marksAlong index marks code segments).lookup name =
        some (index + (segments.take place).flatten.length) := by
  induction code generalizing segments index marks with
  | nil => exact ⟨fun _ => rfl, fun found => nomatch found⟩
  | cons instr code ih =>
    cases segments with
    | nil => cases length
    | cons segment segments =>
      have ⟨absent, present⟩ := ih (Nat.succ.inj length)
        (index + segment.length) (marksAfter index marks instr)
      have other : instr ≠ .label name →
          (marksAfter index marks instr).lookup name = marks.lookup name := by
        intro apart
        cases instr with
        | label label =>
          have differ : (name == label) = false := by
            rw [beq_eq_false_iff_ne]
            rintro rfl
            exact apart rfl
          simp [marksAfter, List.lookup_cons, differ]
        | _ => rfl
      constructor
      · intro missing
        rw [List.mem_cons, not_or] at missing
        exact (absent missing.2).trans (other (Ne.symm missing.1))
      · intro place found once
        cases place with
        | zero =>
          cases found
          rw [List.count_cons_self] at once
          have missing : .label name ∉ code := List.count_eq_zero.mp (by omega)
          rw [marksAlong, absent missing]
          simp [marksAfter]
        | succ place =>
          have later : code[place]? = some (.label name) := found
          have counted := List.count_pos_iff.mpr (List.mem_of_getElem? later)
          rw [List.count_cons] at once
          rw [marksAlong, present later (by split at once <;> omega)]
          simp [Nat.add_assoc]

theorem Building.instructions (building : Building context.frameSlots lowered marks emitter)
    (lowerable : ∀ instr ∈ code, Lowerable context instr) :
    (∃ segments after, Lowering.instructions context code emitter = .ok after ∧
      segments.length = code.length ∧
      Building context.frameSlots (lowered ++ segments.flatten)
        (marksAlong lowered.length marks code segments) after ∧
      Extends emitter after ∧
      ∀ {place : Nat} {instr : Normalized} {segment : Segment},
        code[place]? = some instr → segments[place]? = some segment →
        Lowers context after.signatures after.scratch instr segment) ∨
    ∃ error, Lowering.instructions context code emitter = .error error ∧ Refusal error := by
  induction code generalizing lowered marks emitter with
  | nil =>
    refine .inl ⟨[], emitter, rfl, rfl, ?_, Extends.refl emitter, fun found => nomatch found⟩
    rw [List.flatten_nil, List.append_nil]
    exact building
  | cons instr code ih =>
    rw [Lowering.instructions]
    rcases building.instruction (lowerable instr List.mem_cons_self) with
      ⟨segment, middle, first, builds, extends_, lowers⟩ | ⟨error, failed, refusal⟩
    · simp only [first, bind, Except.bind]
      rcases ih builds
        fun other member => lowerable other (List.mem_cons_of_mem _ member) with
        ⟨segments, after, rest, length, builds, further, each⟩ | refused
      · refine .inl ⟨segment :: segments, after, rest, congrArg Nat.succ length, ?_,
          extends_.trans further, ?_⟩
        · rw [List.append_assoc, List.length_append] at builds
          exact builds
        · intro place other code here there
          cases place with
          | zero =>
            cases here
            cases there
            exact lowers.mono further
          | succ place => exact each here there
      · exact .inr refused
    · simp only [failed, bind, Except.bind]
      exact .inr ⟨error, rfl, refusal⟩

/-! ## Units -/

def emitted (source : Module) (index : Nat) (code : List Normalized) :
    Except Error (Context × Emitter) := do
  let context ← Context.of source index
  let emitter ← prologue context (.new index context.frameSlots)
  let emitter ← instructions context code emitter
  return (context, emitter)

theorem function_eq (source : Module) (index : Nat) (code : List Normalized) (limit : Nat) :
    function source index code limit =
      emitted source index code >>= fun made => made.2.finish made.1.signature limit := by
  unfold function emitted
  cases Context.of source index with
  | error fault => rfl
  | ok context =>
    simp only [bind, Except.bind]
    cases prologue context (.new index context.frameSlots) with
    | error fault => rfl
    | ok emitter =>
      dsimp only
      cases instructions context code emitter with
      | error fault => rfl
      | ok emitter => rfl

/-- What stands in a unit before it is finished. -/
structure Emission (context : Context) (code : List Normalized) (emitter : Emitter) where
  first : List Action
  segments : List Segment
  prologue : Prologue context emitter.signatures first
  length : segments.length = code.length
  building : Building context.frameSlots (plain first ++ segments.flatten)
    (marksAlong first.length [] code segments) emitter
  lowers : ∀ {place : Nat} {instr : Normalized} {segment : Segment},
    code[place]? = some instr → segments[place]? = some segment →
    Lowers context emitter.signatures emitter.scratch instr segment

/-- A function that has a type and a body, and whose code refers to what there is, is lowered or
refused. -/
theorem emitted_outcome
    (typeFound : source.functionType index = some type) (bodyFound : source.body index = some body)
    (lowerable : ∀ context, Context.of source index = .ok context → context.source = source →
      context.locals.size = (type.params ++ body.locals).length →
      ∀ instr ∈ code, Lowerable context instr) :
    (∃ context emitter, emitted source index code = .ok (context, emitter) ∧
      context.source = source ∧ context.signature = type ∧
      FrameLayout (type.params ++ body.locals) context.locals context.frameSlots ∧
      Nonempty (Emission context code emitter)) ∨
    ∃ error, emitted source index code = .error error ∧ Refusal error := by
  unfold emitted
  rcases context_outcome typeFound bodyFound with
    ⟨context, made, sameSource, sameType, layout⟩ | ⟨error, failed, refusal⟩
  · have fresh : Building context.frameSlots [] [] (.new index context.frameSlots) :=
      ⟨represents_new index context.frameSlots, Nat.zero_le _, rfl⟩
    have few : context.signature.params.length ≤ context.locals.size := by
      rw [layout.size, sameType, List.length_append]
      omega
    simp only [made, bind, Except.bind]
    rcases fresh.prologue few with ⟨first, _, done, builds, entry⟩ | ⟨error, failed, refusal⟩
    · simp only [done]
      rcases builds.instructions (lowerable context made sameSource layout.size) with
        ⟨segments, emitter, lowered, length, builds, extends_, each⟩ | ⟨error, failed, refusal⟩
      · simp only [lowered]
        refine .inl ⟨context, emitter, rfl, sameSource, sameType, layout,
          ⟨first, segments, ?_, length, ?_, each⟩⟩
        · obtain ⟨unpacking, unpacks, same⟩ := entry
          refine ⟨unpacking, ?_, same⟩
          unfold Unpacks at unpacks ⊢
          split
          · rename_i convention
            rwa [convention] at unpacks
          · rename_i convention
            rw [convention] at unpacks
            obtain ⟨signature, pooled, code⟩ := unpacks
            exact ⟨signature, extends_.signatures pooled, code⟩
        · simpa [plain] using builds
      · simp only [failed]
        exact .inr ⟨error, rfl, refusal⟩
    · simp only [failed]
      exact .inr ⟨error, rfl, refusal⟩
  · simp only [failed, bind, Except.bind]
    exact .inr ⟨error, rfl, refusal⟩

/-- What stands in a loaded unit: the prologue, and behind it a segment for each instruction. A name
stands for the start of the segment of its label. -/
structure Assembly (context : Context) (code : List Normalized) (unit : LoadedUnit) where
  scratch : Option UInt16
  first : List Action
  segments : List Segment
  target : Nat → Nat
  prologue : Prologue context unit.signatures first
  length : segments.length = code.length
  lowers : ∀ {place : Nat} {instr : Normalized} {segment : Segment},
    code[place]? = some instr → segments[place]? = some segment →
    Lowers context unit.signatures scratch instr segment
  slots : FrameSlots context.frameSlots unit.localSlots scratch
  signature : unit.signature = context.signature
  code_eq : unit.code.toList =
    (plain first ++ segments.flatten).map (Machine.Instruction.retarget target)
  target_eq : ∀ {place name : Nat}, code[place]? = some (.label name) →
    code.count (.label name) = 1 →
    target name = first.length + (segments.take place).flatten.length

theorem Lowers.targets (lowers : Lowers context signatures scratch instr segment) :
    ∀ lowered ∈ segment, lowered.targets.length ≤ 65535 ∧
      ∀ name ∈ lowered.targets, name ∈ instr.targets := by
  have ofPlain : ∀ {actions : List Action}, segment = plain actions → ∀ lowered ∈ segment,
      lowered.targets.length ≤ 65535 ∧ ∀ name ∈ lowered.targets, name ∈ instr.targets := by
    rintro actions rfl lowered member
    obtain ⟨_, _, rfl⟩ := List.mem_map.mp member
    exact ⟨Nat.zero_le _, fun name jumps => nomatch jumps⟩
  have ofPolled : ∀ {jump : Machine.Instruction Nat}, Polled segment jump →
      jump.targets = instr.targets → jump.targets.length ≤ 65535 → ∀ lowered ∈ segment,
      lowered.targets.length ≤ 65535 ∧ ∀ name ∈ lowered.targets, name ∈ instr.targets := by
    rintro jump (rfl | rfl) same few lowered member
    · rw [List.mem_singleton.mp member]
      exact ⟨few, fun name jumps => same ▸ jumps⟩
    · rcases List.mem_cons.mp member with rfl | last
      · exact ⟨Nat.zero_le _, fun name jumps => nomatch jumps⟩
      · rw [List.mem_singleton.mp last]
        exact ⟨few, fun name jumps => same ▸ jumps⟩
  have single : ∀ (condition : Condition) (name : Nat),
      (Machine.Instruction.jump condition name).targets.length ≤ 65535 := by
    intro _ _
    exact Nat.succ_le_succ (Nat.zero_le _)
  cases instr with
  | label name => exact @ofPlain [] lowers
  | goto name | ifZero name | ifNonzero name => exact ofPolled lowers rfl (single _ name)
  | switch => exact ofPolled lowers.2 rfl lowers.1
  | dropKeep drop =>
    simp only [Lowers] at lowers
    split at lowers
    · exact @ofPlain [] lowers
    · exact ofPlain lowers.2.2
  | leave =>
    simp only [Lowers] at lowers
    split at lowers
    · obtain ⟨_, _, same⟩ := lowers
      exact ofPlain same
    · exact ofPlain lowers
  | trap | drop | select => exact ofPlain lowers
  | localTee =>
    obtain ⟨_, _, _, same⟩ := lowers
    exact ofPlain same
  | call =>
    obtain ⟨_, _, _, _, same⟩ := lowers
    exact ofPlain same
  | callIndirect =>
    obtain ⟨_, _, _, _, _, _, same⟩ := lowers
    exact ofPlain same
  | operator operator =>
    obtain ⟨_, _, same⟩ := lowers
    exact ofPlain same

theorem Lowers.ne_nil_of_leave (lowers : Lowers context signatures scratch (.leave kinds) segment) :
    segment ≠ [] := by
  simp only [Lowers] at lowers
  split at lowers
  · obtain ⟨_, _, rfl⟩ := lowers
    exact List.cons_ne_nil _ _
  · rw [lowers]
    exact List.cons_ne_nil _ _

namespace Emission

variable {context : Context} {code : List Normalized} {emitter : Emitter}
  (emission : Emission context code emitter)

theorem exists_place (member : lowered ∈ plain emission.first ++ emission.segments.flatten) :
    lowered.targets = [] ∨ ∃ (place : Nat) (instr : Normalized) (segment : Segment),
      code[place]? = some instr ∧ emission.segments[place]? = some segment ∧ lowered ∈ segment := by
  rcases List.mem_append.mp member with front | behind
  · obtain ⟨_, _, rfl⟩ := List.mem_map.mp front
    exact .inl rfl
  · obtain ⟨segment, listed, inside⟩ := List.mem_flatten.mp behind
    obtain ⟨place, found⟩ := List.mem_iff_getElem?.mp listed
    have below := (List.getElem?_eq_some_iff.mp found).1
    rw [emission.length] at below
    exact .inr ⟨place, _, segment, List.getElem?_eq_getElem below, found, inside⟩

def start (place : Nat) : Nat :=
  emission.first.length + (emission.segments.take place).flatten.length

/-- Every name that is jumped to marks the start of the segment of a label. -/
def Labelled : Prop :=
  ∀ lowered ∈ plain emission.first ++ emission.segments.flatten, ∀ name ∈ lowered.targets,
    ∃ place, code[place]? = some (.label name) ∧
      (marksAlong emission.first.length [] code emission.segments).lookup name =
        some (emission.start place)

theorem start_lt (found : code[place]? = some (.label name))
    (ends : ∃ front kinds, code = front ++ [.leave kinds]) :
    emission.start place < (plain emission.first ++ emission.segments.flatten).length := by
  obtain ⟨front, kinds, rfl⟩ := ends
  have below := (List.getElem?_eq_some_iff.mp found).1
  have total := emission.length
  rw [List.length_append, List.length_singleton] at below total
  have last : (front ++ [Normalized.leave kinds])[front.length]? = some (.leave kinds) := by simp
  have before : place < front.length := by
    refine Nat.lt_of_le_of_ne (by omega) fun same => ?_
    rw [same, last] at found
    cases found
  have inside : front.length < emission.segments.length := by omega
  have listed := List.getElem?_eq_getElem inside
  have filled := (emission.lowers last listed).ne_nil_of_leave
  have split : emission.segments =
      emission.segments.take place ++ (emission.segments.drop place) :=
    (List.take_append_drop place emission.segments).symm
  have later : emission.segments[front.length] ∈ emission.segments.drop place :=
    List.mem_iff_getElem?.mpr ⟨front.length - place, by
      rw [List.getElem?_drop, Nat.add_sub_cancel' (Nat.le_of_lt before), listed]⟩
  have positive : 0 < (emission.segments.drop place).flatten.length := by
    refine List.length_pos_iff.mpr fun empty => filled ?_
    exact List.flatten_eq_nil_iff.mp empty _ later
  conv => rhs; rw [split]
  simp only [start, List.length_append, List.flatten_append, plain, List.length_map]
  omega

theorem labelled_of_once
    (once : ∀ instr ∈ code, ∀ name ∈ instr.targets, code.count (.label name) = 1) :
    emission.Labelled := by
  intro lowered member name jumps
  rcases emission.exists_place member with empty | ⟨_, instr, _, here, there, inside⟩
  · rw [empty] at jumps
    cases jumps
  · have named := ((emission.lowers here there).targets lowered inside).2 name jumps
    have counted := once instr (List.mem_of_getElem? here) name named
    obtain ⟨labelled, found⟩ := List.mem_iff_getElem?.mp
      (List.count_pos_iff.mp (by omega : 0 < code.count (.label name)))
    exact ⟨labelled, found, (lookup_marksAlong emission.length _ _ _).2 found counted⟩

theorem exists_assembly (labelled : emission.Labelled)
    (ends : ∃ front kinds, code = front ++ [.leave kinds])
    (near : emitter.size < 2 ^ 31 ∨ ∃ resolved, emitter.resolveFixups = .ok resolved) :
    ∃ labelled place, emitter.Places labelled place ∧
      (emitter.size < 2 ^ 31 → Narrow labelled place) ∧
      ∀ maxStack, ∃ assembly : Assembly context code (loadedUnit emitter
          (labelled.map (Machine.Instruction.retarget (indexOf place))) context.signature maxStack),
        ∀ lowered ∈ plain assembly.first ++ assembly.segments.flatten,
          ∀ name ∈ lowered.targets, ∃ place, assembly.target name =
            assembly.first.length + (assembly.segments.take place).flatten.length := by
  obtain ⟨code', place, places, narrow, loaded⟩ := emission.building.represents.exists_places
    (fun lowered member name jumps => by
      obtain ⟨place, found, marked⟩ := labelled lowered member name jumps
      exact ⟨_, marked, emission.start_lt found ends⟩)
    near
    (by
      intro lowered member
      rcases emission.exists_place member with empty | ⟨_, _, _, here, there, inside⟩
      · simp [Machine.Instruction.Encodable, empty]
      · exact ((emission.lowers here there).targets lowered inside).1)
  refine ⟨code', place, places, narrow, fun maxStack =>
    ⟨⟨emitter.scratch, emission.first, emission.segments,
    Represents.target (marksAlong emission.first.length [] code emission.segments),
    emission.prologue, emission.length, emission.lowers, emission.building.slots, rfl, ?_, ?_⟩, ?_⟩⟩
  · simp only [loadedUnit]
    exact loaded
  · intro labelled name found counted
    rw [Represents.target, (lookup_marksAlong emission.length _ _ _).2 found counted]
    rfl
  · intro lowered member name jumps
    obtain ⟨place, _, marked⟩ := labelled lowered member name jumps
    exact ⟨place, congrArg (·.getD 0) marked⟩

end Emission

end TwinEngine.Lowering
