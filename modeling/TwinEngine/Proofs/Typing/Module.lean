import TwinEngine.Proofs.Typing.Body
import TwinEngine.Proofs.Typing.TypeSpace

/-!
Contract: modules that are read from core binaries are typed.

Owns: kinds of constant expressions, what it means that a module is typed, the agreement of a check
of sections with the module that they describe, and the shapes that validation predicts.

Each fold of the check over a list of entries adds one thing at a time, and so does the conversion
of the list; so after each entry what the check knows is a part of the module.
-/

namespace TwinEngine.Typing

open Binary
open List (map_append getElem?_map length_append length_singleton all_eq_true cons)
open Validation
open Option (bind_eq_some_iff bind_eq_bind map_eq_some_iff map_some pure_def all_some
    isSome_iff_exists some)
open Array (getElem?_toList length_toList)

variable {source : Module} {context : Validation.Context} {functions tables memories : Nat}
  {body : Body} {type : FunctionType} {expr : ConstExpr}

/-! ## Typed modules -/

/-- A constant expression has a kind, and refers to things that are there. Of the globals it sees
those below a bound. -/
def ConstTyped (source : Module) (bound : Nat) (kind : ValueKind) : ConstExpr → Prop
  | .constant value => value.kind = kind
  | .refNull null => null = kind ∧ kind.isRef
  | .refFunc function => function < source.functionCount ∧ kind = .funcRef
  | .globalGet index =>
    index < bound ∧ ∃ global, source.globals[index]? = some global ∧ global.kind = kind

/-- The items of an element segment have its kind, and its table is there. -/
structure ElementTyped (source : Module) (segment : ElementSegment) : Prop where
  items : ∀ item ∈ segment.items, ConstTyped source source.globals.size segment.kind item
  mode : ∀ {table : Nat} {offset : ConstExpr}, segment.mode = .active table offset →
    ConstTyped source source.globals.size .i32 offset ∧
      ∃ type, source.tables[table]? = some type

/-- What the constant expressions of a module initialize is typed. -/
structure ItemsTyped (source : Module) : Prop where
  tables : ∀ {index : Nat} {type : TableType}, source.tables[index]? = some type →
    type.element.isRef ∧ ∀ init, type.init = some init →
      ConstTyped source source.globals.size type.element init
  globals : ∀ {index : Nat} {global : Global}, source.globals[index]? = some global →
    ConstTyped source index global.kind global.init
  elements : ∀ {index : Nat} {segment : ElementSegment}, source.elements[index]? = some segment →
    ElementTyped source segment

/-- Everything that a module defines is typed. -/
structure ModuleTyped (source : Module) : Prop extends ItemsTyped source where
  types : ∀ {function : Nat}, function < source.functionCount →
    ∃ type, source.functionType function = some type
  sizes : source.bodies.size = source.functions.size
  bodies : ∀ {function : Nat} {type : FunctionType} {body : Body},
    source.functionType function = some type → source.body function = some body →
      ∃ shapes, BodyTyped source type body shapes
  data : ∀ {index : Nat} {segment : DataSegment} {offset : ConstExpr},
    source.data[index]? = some segment → segment.offset = some offset →
      source.memory.isSome ∧ ConstTyped source source.globals.size .i32 offset
  start : ∀ {function : Nat}, source.start = some function →
    source.functionType function = some ⟨[], []⟩

theorem ConstTyped.mono (typed : ConstTyped source bound kind expr) (below : bound ≤ wider) :
    ConstTyped source wider kind expr := by
  cases expr with
  | globalGet =>
    obtain ⟨_, found⟩ := typed
    exact ⟨by omega, found⟩
  | _ => exact typed

theorem ModuleTyped.exists_body (typed : ModuleTyped source)
    (defined : source.importCount ≤ function) (inside : function < source.functionCount) :
    ∃ type body, source.functionType function = some type ∧ source.body function = some body := by
  obtain ⟨type, typeFound⟩ := typed.types inside
  have below : function - source.imports.size < source.bodies.size := by
    rw [typed.sizes]
    simp only [Module.importCount, Module.functionCount] at defined inside
    omega
  have bodyFound : source.body function = some source.bodies[function - source.imports.size] := by
    have apart : ¬ function < source.imports.size := Nat.not_lt.mpr defined
    rw [Module.body, if_neg apart]
    exact Array.getElem?_eq_getElem below
  exact ⟨type, _, typeFound, bodyFound⟩

theorem ModuleTyped.exists_type (typed : ModuleTyped source)
    (found : source.body function = some body) :
    ∃ type, source.functionType function = some type := by
  refine typed.types ?_
  unfold Module.body at found
  split at found
  · cases found
  · have inside := lt_size found
    rw [typed.sizes] at inside
    unfold Module.functionCount
    omega

/-! ## What a check knows while it goes on -/

/-- What a check knows is a part of a module: so many functions, tables, memories, globals and
element segments of it. -/
structure Known (source : Module) (context : Context)
    (functions tables memories globals elements : Nat) : Prop where
  agrees : Agrees context source []
  signatures : ∀ {typeIndex : Nat}, typeIndex ∈ context.functions →
    ∃ type, source.types[typeIndex]? = some type
  functions : context.functions.size = functions
  tables : context.tables.size = tables
  memories : context.memories.size = memories
  globals : context.globals.size = globals
  elements : context.elements.size = elements
  locals : context.locals = #[]
  dataCount : context.dataCount = none

variable {segment : ElementSegment} {α β ε : Type} {f : α → Except ε β} {items : List α}
  {images : List β} {elements : Nat} {ops : List Binary.Operator}

theorem of_getElem?_push {entries : Array α} {holds : Nat → α → Prop} (size : entries.size = count)
    (last : holds count entry)
    (earlier : ∀ {index : Nat} {other : α}, entries[index]? = some other → holds index other)
    {index : Nat} (found : (entries.push entry)[index]? = some other) : holds index other := by
  rw [Array.getElem?_push, size] at found
  split at found
  · rename_i same
    subst same
    cases found
    exact last
  · exact earlier found

namespace Known

variable {source : Module} {context : Validation.Context}
  {functions tables memories globals elements : Nat}

variable (known : Known source context functions tables memories globals elements)

include known

theorem pushFunction (here : source.functionTypeIndex functions = some typeIndex)
    (function : (context.space.signature typeIndex).isSome) :
    Known source { context with functions := context.functions.push typeIndex } (functions + 1)
      tables memories globals elements := by
  obtain ⟨signature, found⟩ := isSome_iff_exists.mp function
  refine { known with
    agrees := { known.agrees with functions := ?_ }, signatures := ?_, functions := ?_ }
  · exact of_getElem?_push known.functions here known.agrees.functions
  · intro _ member
    rcases Array.mem_push.mp member with old | new
    · exact known.signatures old
    · subst new
      exact ⟨_, known.agrees.signature found⟩
  · simp [known.functions]

theorem pushTable {type : TableType} (here : source.tables[tables]? = some type)
    (kind : type.element = heapKind note.element.heap) :
    Known source { context with tables := context.tables.push note } functions (tables + 1)
      memories globals elements := by
  refine { known with agrees := { known.agrees with tables := ?_ }, tables := ?_ }
  · exact of_getElem?_push known.tables ⟨type, here, kind⟩ known.agrees.tables
  · simp [known.tables]

theorem pushMemory (here : source.memory.isSome) :
    Known source { context with memories := context.memories.push note } functions tables
      (memories + 1) globals elements :=
  { known with
    agrees := { known.agrees with memory := fun _ => here }
    memories := by simp [known.memories] }

theorem pushGlobal
    (here : source.globals[globals]? = some global) (kind : global.kind = kindOf note.type)
    (writable : global.isMutable = note.isMutable) :
    Known source { context with globals := context.globals.push note } functions tables
      memories (globals + 1) elements := by
  refine { known with agrees := { known.agrees with globals := ?_ }, globals := ?_ }
  · exact of_getElem?_push known.globals ⟨global, here, kind, writable⟩ known.agrees.globals
  · simp [known.globals]

theorem pushElement {type : RefType}
    (here : source.elements[elements]? = some segment) (kind : segment.kind = heapKind type.heap) :
    Known source { context with elements := context.elements.push type } functions tables
      memories globals (elements + 1) := by
  refine { known with agrees := { known.agrees with elements := ?_ }, elements := ?_ }
  · exact of_getElem?_push known.elements ⟨segment, here, kind⟩ known.agrees.elements
  · simp [known.elements]

end Known

/-! ## Constant expressions -/

def constantOperator : ConstExpr → TwinEngine.Operator
  | .constant value => .constant value
  | .refNull kind => .refNull kind
  | .refFunc function => .refFunc function
  | .globalGet index => .globalGet index

theorem constantFrom_some (ended : constantFrom (some value) ops = .ok expr) :
    expr = value ∧ (ops = [] ∨ ∃ tail, ops = .plain .finish :: tail) := by
  cases ops with
  | nil =>
    cases ended
    exact ⟨rfl, .inl rfl⟩
  | cons first rest =>
    cases first with
    | plain op =>
      cases op <;> cases ended
      exact ⟨rfl, .inr ⟨rest, rfl⟩⟩
    | refNull heap =>
      simp only [constantFrom] at ended
      cases kind : heap.kind <;> rw [kind] at ended <;> cases ended
    | _ => cases ended

theorem constantExpr_eq_ok (supported : constantExpr ops = .ok expr) :
    ∃ op rest, ops = op :: rest ∧ op.supported = .ok (constantOperator expr) ∧
      (rest = [] ∨ ∃ tail, rest = .plain .finish :: tail) := by
  cases ops with
  | nil => cases supported
  | cons first rest =>
    have read : ∃ value, constantFrom (some value) rest = .ok expr ∧
        first.supported = .ok (constantOperator value) := by
      cases first with
      | plain op =>
        cases op <;> first | exact ⟨_, supported, rfl⟩ | cases supported
      | refNull heap =>
        obtain ⟨_, value, supported⟩ := bind_eq_ok.mp supported
        obtain ⟨known, kind, rfl⟩ := map_eq_ok.mp value
        refine ⟨.refNull known, supported, ?_⟩
        rw [Operator.supported, kind]
        rfl
      | _ => cases supported
    obtain ⟨value, ended, supports⟩ := read
    obtain ⟨rfl, ends⟩ := constantFrom_some ended
    exact ⟨first, rest, rfl, supports, ends⟩

theorem lt_of_step_globalGet (supports : written.supported = .ok (.globalGet index))
    (stepped : step context state written = some state') : index < context.globals.size := by
  rw [eq_plain_of_supported rfl supports] at stepped
  simp only [step, stepPlain, bind_eq_some] at stepped
  obtain ⟨_, here, _⟩ := stepped
  exact lt_size here

theorem constTyped_of_agrees (agrees : Agrees context source []) {type : ValType}
    (typed : constantTyped context type ops = true) (supported : constantExpr ops = .ok expr) :
    ConstTyped source context.globals.size (kindOf type) expr := by
  obtain ⟨_, _, rfl, supports, ends⟩ := constantExpr_eq_ok supported
  simp only [constantTyped, Bool.and_eq_true, bodyTyped] at typed
  obtain ⟨_, checked⟩ := typed
  split at checked
  · rename_i done
    simp only [steps, bind_eq_some_iff] at done
    obtain ⟨_, first, second⟩ := done
    have agrees : Agrees { context with referable := none } source [] := { agrees with }
    have flat : nests (constantOperator expr) = false := by cases expr <;> rfl
    obtain ⟨_, later, _, before, after, continues, effect⟩ := step_flat agrees supports flat first
    cases before
    have plain : ∃ params results, Validation.Effect source [] params results
        (constantOperator expr) ∧ (Frame.enter .body ⟨[], [type]⟩ []).Turns later params
          results := by
      have effect := effect (Frame.enter_live _ _ _)
      cases expr <;> exact effect
    obtain ⟨params, results, effect, live, _, operands, laterKinds⟩ := plain
    obtain ⟨_, rfl⟩ := List.append_eq_nil_iff.mp operands.symm
    have closed : later.kinds = [kindOf type] := by
      rcases ends with rfl | ⟨_, rfl⟩
      · cases second
        rw [after] at checked
        cases checked
      · simp only [steps, bind_eq_some_iff] at second
        obtain ⟨_, finished, _⟩ := second
        obtain ⟨_, _, same, closes, _⟩ := step_finish rfl finished
        rw [after] at same
        cases same
        rw [Frame.kinds_of_closes live closes, continues.results]
        rfl
    have same : results = [kindOf type] := by
      rw [laterKinds, List.append_nil] at closed
      simpa using congrArg List.reverse closed
    subst same
    cases expr with
    | constant =>
      obtain ⟨_, same⟩ := effect
      exact (cons.inj same).1.symm
    | refNull =>
      obtain ⟨reference, _, same⟩ := effect
      obtain ⟨same, _⟩ := cons.inj same
      exact ⟨same.symm, same ▸ reference⟩
    | refFunc =>
      obtain ⟨below, _, same⟩ := effect
      exact ⟨below, (cons.inj same).1⟩
    | globalGet =>
      obtain ⟨global, found, _, same⟩ := effect
      refine ⟨?_, global, found, (cons.inj same).1.symm⟩
      have below := lt_of_step_globalGet supports first
      exact below
  · cases checked

theorem Known.constTyped {globals : Nat}
    (known : Known source context functions tables memories globals elements) {type : ValType}
    (typed : constantTyped context type ops = true) (supported : constantExpr ops = .ok expr) :
    ConstTyped source globals (kindOf type) expr := by
  rw [← known.globals]
  exact constTyped_of_agrees known.agrees typed supported

/-! ## Sections and the module that they describe -/

/-- A module holds what sections describe, entry by entry. -/
structure Describes (sections : Sections) (source : Module) : Prop where
  types : sections.types.flatten.mapM SubType.functionType = .ok source.types.toList
  imports : sections.imports.mapM ImportEntry.functionImport = .ok source.imports.toList
  functions : sections.functions = source.functions.toList
  tables : sections.tables.mapM TableEntry.tableType = .ok source.tables.toList
  memory : onlyMemory none sections.memories = .ok source.memory
  globals : sections.globals.mapM GlobalEntry.global = .ok source.globals.toList
  exports : sections.exports.mapM ExportEntry.supported = .ok source.exports.toList
  start : sections.start = source.start
  elements : sections.elements.mapM ElementEntry.segment = .ok source.elements.toList
  bodies : sections.code.mapM CodeEntry.body = .ok source.bodies.toList
  data : sections.data.mapM DataEntry.segment = .ok source.data.toList

theorem describes_of_module (described : sections.module = .ok source) :
    Describes sections source := by
  simp only [Sections.module, Sections.extending, bind_eq_ok] at described
  obtain ⟨_, _, _, _, _, _, _, _, _,
    _, _, _, _, _, _, _, _, _, same⟩ :=
    described
  cases same
  constructor <;> simp_all

section

variable {sections : Sections} {source : Module} (describes : Describes sections source)

include describes

theorem known_types
    (added : sections.types.foldlM TypeSpace.addGroup (TypeSpace.fresh {}) = some space) :
    Known source { space } 0 0 0 0 0 where
  agrees :=
    { signature := fun found => by
        have here := (stores_of_foldlM added).signature describes.types found
        rwa [← getElem?_toList]
      functions := fun found => by simp at found
      tables := fun found => by simp at found
      globals := fun found => by simp at found
      elements := fun found => by simp at found
      memory := fun declared => by simp at declared
      data := fun found => by simp [Context.hasData] at found
      locals := fun found => by simp at found }
  signatures := fun member => by simp at member
  functions := rfl
  tables := rfl
  memories := rfl
  globals := rfl
  elements := rfl
  locals := rfl
  dataCount := rfl

variable {first : Validation.Context} {function index : Nat} {agree : α → β → Bool} {left : List α}
  {right : List β}

omit describes in
/-- A fold over entries that are read one by one: what holds of the count holds at the end, and what
each step shows of what its entry reads as holds of all of them. -/
theorem foldlM_reads {α β ε σ : Type} {first last : σ} {items : List α} {images : Array β}
    {read : α → Except ε β} {step : σ → α → Option σ} (mapped : items.mapM read = .ok images.toList)
    (holds : Nat → σ → Prop) (fact : Nat → β → Prop) (start : holds 0 first)
    (next : ∀ {place item image before after}, images[place]? = some image →
      read item = .ok image → holds place before → step before item = some after →
      holds (place + 1) after ∧ fact place image) (folded : items.foldlM step first = some last) :
    holds images.size last ∧ ∀ {place image}, images[place]? = some image → fact place image := by
  have all := foldlM_invariant (fun done state => holds done.length state ∧
    ∀ place < done.length, ∀ image, images[place]? = some image → fact place image)
    ⟨start, fun _ below => absurd below (by simp)⟩ ?_ folded
  · rw [← length_of_mapM mapped] at all
    exact ⟨all.1, fun found => all.2 _ (lt_size found) _ found⟩
  · intro done _ _ _ entered held stepped
    obtain ⟨image, here, reads⟩ := image_of_mapM mapped entered
    rw [getElem?_toList] at here
    obtain ⟨holding, shown⟩ := next here reads held.1 stepped
    rw [length_append, length_singleton]
    refine ⟨holding, fun place below other found => ?_⟩
    rcases Nat.lt_succ_iff_lt_or_eq.mp below with earlier | same
    · exact held.2 place earlier other found
    · subst same
      cases here.symm.trans found
      exact shown

theorem known_imports (known : Known source first 0 0 0 0 0)
    (added : sections.imports.foldlM addImport first = some context) :
    Known source context source.imports.size 0 0 0 0 := by
  have all := foldlM_invariant (fun done context => Known source context done.length 0 0 0 0)
    known ?_ added
  · have size := length_of_mapM describes.imports
    rw [length_toList] at size
    rw [size]
    exact all
  · intro done _ _ _ entered held stepped
    obtain ⟨_, here, supported⟩ := image_of_mapM describes.imports entered
    unfold ImportEntry.functionImport at supported
    split at supported
    · rename_i note
      cases supported
      simp only [addImport, note, addFunction, bind_eq_some, pure_def, some.injEq, ensure_eq_some,
        isFunctionType] at stepped
      obtain ⟨_, isFunction, rfl⟩ := stepped
      rw [length_append, length_singleton]
      refine held.pushFunction ?_ isFunction
      rw [getElem?_toList] at here
      have below := lt_size here
      rw [Module.functionTypeIndex, if_pos below, here]
      rfl
    · cases supported

theorem known_functions (known : Known source first source.imports.size 0 0 0 0)
    (added : sections.functions.foldlM addFunction first = some context) :
    Known source context source.functionCount 0 0 0 0 := by
  have all := foldlM_invariant (fun done context =>
    Known source context (source.imports.size + done.length) 0 0 0 0) known ?_ added
  · have size : source.functions.size = sections.functions.length := by
      rw [describes.functions, length_toList]
    rwa [Module.functionCount, size]
  · intro done _ _ _ entered held stepped
    simp only [addFunction, bind_eq_some, pure_def, some.injEq, ensure_eq_some,
      isFunctionType] at stepped
    obtain ⟨_, isFunction, rfl⟩ := stepped
    rw [length_append, length_singleton]
    refine held.pushFunction ?_ isFunction
    rw [Module.functionTypeIndex, if_neg (by omega), Nat.add_sub_cancel_left,
      ← getElem?_toList, ← describes.functions, entered]

omit describes in
theorem heapKind_refType {space : TypeSpace} {written type : RefType}
    (found : space.refType written = some type) : heapKind type.heap = heapKind written.heap := by
  simp only [TypeSpace.refType, Option.ite_none_right_eq_some] at found
  have renamed : (ValType.ref written).rename (space.indices[·]?) = some (.ref type) := by
    rw [ValType.rename, found.2]
    rfl
  exact kindOf_rename renamed

omit describes in
theorem tableType_eq_ok {entry : TableEntry} {type : TableType}
    (supported : entry.tableType = .ok type) :
    entry.note.element.kind = .ok type.element ∧ ∀ expr, type.init = some expr →
      ∃ ops, entry.init = some ops ∧ constantExpr ops = .ok expr := by
  unfold TableEntry.tableType at supported
  cases initial : entry.init with
  | none =>
    rw [initial] at supported
    simp only [bind_eq_ok] at supported
    obtain ⟨_, absent, kind, kindEq, same⟩ := supported
    cases same
    cases absent
    exact ⟨kindEq, fun _ absurd => nomatch absurd⟩
  | some ops =>
    rw [initial] at supported
    simp only [bind_eq_ok] at supported
    obtain ⟨init, read, kind, kindEq, same⟩ := supported
    cases same
    refine ⟨kindEq, fun expr written => ⟨ops, rfl, ?_⟩⟩
    cases written
    obtain ⟨_, value, same⟩ := map_eq_ok.mp read
    cases same
    exact value

theorem known_tables (known : Known source first functions 0 0 0 0)
    (added : sections.tables.foldlM addTable first = some context) :
    Known source context functions source.tables.size 0 0 0 ∧
      ∀ {index : Nat} {type : TableType}, source.tables[index]? = some type →
        type.element.isRef ∧ ∀ init, type.init = some init →
          ConstTyped source source.globals.size type.element init := by
  refine foldlM_reads describes.tables (fun count context =>
    Known source context functions count 0 0 0) _ known ?_ added
  intro _ _ type _ _ here supported held stepped
  obtain ⟨kindEq, initEq⟩ := tableType_eq_ok supported
  simp only [addTable, tableNote, addTableNote, bind_eq_some, pure_def, some.injEq,
    ensure_eq_some] at stepped
  obtain ⟨_, ⟨element, renamed, _, _, rfl⟩, _, typed, _, _, rfl⟩ := stepped
  obtain ⟨sameKind, reference⟩ := refKind_of_kind kindEq
  have elementKind : heapKind element.heap = type.element :=
    (heapKind_refType renamed).trans sameKind
  refine ⟨held.pushTable here elementKind.symm, reference, fun expr written => ?_⟩
  obtain ⟨_, initial, read⟩ := initEq expr written
  rw [initial] at typed
  have kinded := held.constTyped typed read
  rw [show kindOf (.ref element) = type.element from elementKind] at kinded
  exact kinded.mono (Nat.zero_le _)

theorem known_memories (known : Known source first functions tables 0 0 0)
    (added : sections.memories.foldlM addMemory first = some context) :
    Known source context functions tables sections.memories.length 0 0 := by
  refine foldlM_invariant (fun done context =>
    Known source context functions tables done.length 0 0) known ?_ added
  intro done _ _ _ entered held stepped
  simp only [addMemory, bind_eq_some, pure_def, some.injEq] at stepped
  obtain ⟨_, _, _, _, rfl⟩ := stepped
  rw [length_append, length_singleton]
  apply held.pushMemory
  have only := describes.memory
  unfold onlyMemory at only
  split at only
  · rename_i absent
    rw [absent] at entered
    cases entered
  · injection only with same
    rw [← same]
    rfl
  · cases only

omit describes in
theorem known_tags {tags : List Nat} (known : Known source first functions tables memories 0 0)
    (added : tags.foldlM addTag first = some context) :
    Known source context functions tables memories 0 0 := by
  refine foldlM_invariant (fun _ context => Known source context functions tables memories 0 0)
    known ?_ added
  intro _ _ _ _ _ held stepped
  simp only [addTag, bind_eq_some, pure_def, some.injEq] at stepped
  obtain ⟨_, _, rfl⟩ := stepped
  exact { held with agrees := { held.agrees with } }

theorem known_globals (known : Known source first functions tables memories 0 0)
    (added : sections.globals.foldlM addGlobal first = some context) :
    Known source context functions tables memories source.globals.size 0 ∧
      ∀ {index global}, source.globals[index]? = some global →
        ConstTyped source index global.kind global.init := by
  refine foldlM_reads describes.globals (fun count context =>
    Known source context functions tables memories count 0) _ known ?_ added
  intro _ _ _ _ _ here supported held stepped
  simp only [GlobalEntry.global, bind_eq_ok] at supported
  obtain ⟨kind, kindEq, init, initEq, same⟩ := supported
  cases same
  simp only [addGlobal, globalNote, bind_eq_some, pure_def, some.injEq,
    ensure_eq_some] at stepped
  obtain ⟨_, ⟨type, renamed, rfl⟩, _, typed, rfl⟩ := stepped
  have sameKind : kindOf type = kind := (kindOf_valType renamed).trans (kindOf_of_kind kindEq)
  refine ⟨held.pushGlobal here sameKind.symm rfl, ?_⟩
  have kinded := held.constTyped typed initEq
  rwa [sameKind] at kinded

omit describes in
theorem segment_eq_ok {entry : ElementEntry} (supported : entry.segment = .ok segment) :
    (match entry.items with
      | .functions indices => segment.kind = .funcRef ∧ segment.items = indices.map .refFunc
      | .expressions type items =>
        type.kind = .ok segment.kind ∧ items.mapM constantExpr = .ok segment.items) ∧
    ∀ {table offset}, segment.mode = .active table offset →
      ∃ ops, entry.place = .active table ops ∧
        constantExpr ops = .ok offset := by
  obtain ⟨place, items⟩ := entry
  cases items with
  | functions indices =>
    cases place with
    | passive | declared =>
      cases supported
      exact ⟨⟨rfl, rfl⟩, fun active => nomatch active⟩
    | active table ops =>
      obtain ⟨_, same, placed⟩ := bind_eq_ok.mp supported
      cases same
      obtain ⟨_, read, made⟩ := bind_eq_ok.mp placed
      obtain ⟨known, value, rfl⟩ := map_eq_ok.mp read
      cases made
      refine ⟨⟨rfl, rfl⟩, fun active => ?_⟩
      cases active
      exact ⟨ops, rfl, value⟩
  | expressions type =>
    simp only [ElementEntry.segment, bind_eq_ok] at supported
    obtain ⟨_, valuesEq, kind, kindEq, _, same, placed⟩ := supported
    cases same
    cases place with
    | passive | declared =>
      cases placed
      exact ⟨⟨kindEq, valuesEq⟩, fun active => nomatch active⟩
    | active table ops =>
      obtain ⟨_, read, made⟩ := bind_eq_ok.mp placed
      obtain ⟨known, value, rfl⟩ := map_eq_ok.mp read
      cases made
      refine ⟨⟨kindEq, valuesEq⟩, fun active => ?_⟩
      cases active
      exact ⟨ops, rfl, value⟩

theorem known_elements (functionsKnown : functions = source.functionCount)
    (known : Known source first functions tables memories source.globals.size 0)
    (added : sections.elements.foldlM addElement first = some context) :
    Known source context functions tables memories source.globals.size source.elements.size ∧
      ∀ {index : Nat} {segment : ElementSegment}, source.elements[index]? = some segment →
        ElementTyped source segment := by
  refine foldlM_reads describes.elements (fun count context =>
    Known source context functions tables memories source.globals.size count) _ known ?_ added
  intro _ entry segment _ _ here supported held stepped
  obtain ⟨itemsEq, modeEq⟩ := segment_eq_ok supported
  simp only [addElement, bind_eq_some, pure_def, some.injEq, ensure_eq_some] at stepped
  obtain ⟨type, typeEq, _, placed, rfl⟩ := stepped
  -- The kind of the items, and that each of them has it.
  have kinds : segment.kind = heapKind type.heap ∧
      ∀ item ∈ segment.items, ConstTyped source source.globals.size segment.kind item := by
    cases written : entry.items with
    | functions =>
      rw [written] at itemsEq typeEq
      simp only [elementType, bind_eq_some, pure_def, some.injEq, ensure_eq_some,
        all_eq_true, decide_eq_true_eq] at typeEq
      obtain ⟨_, below, rfl⟩ := typeEq
      obtain ⟨kind, items⟩ := itemsEq
      rw [kind, items]
      refine ⟨rfl, fun item member => ?_⟩
      obtain ⟨function, listed, rfl⟩ := List.mem_map.mp member
      have inside := below function listed
      rw [held.functions, functionsKnown] at inside
      exact ⟨inside, rfl⟩
    | expressions _ items =>
      rw [written] at itemsEq typeEq
      simp only [elementType, bind_eq_some, pure_def, some.injEq, ensure_eq_some,
        all_eq_true] at typeEq
      obtain ⟨element, renamed, _, typed, same⟩ := typeEq
      subst same
      obtain ⟨kindEq, valuesEq⟩ := itemsEq
      have elementKind : heapKind element.heap = segment.kind :=
        (heapKind_refType renamed).trans (refKind_of_kind kindEq).1
      refine ⟨elementKind.symm, fun item member => ?_⟩
      obtain ⟨_, there⟩ := List.mem_iff_getElem?.mp member
      obtain ⟨ops, found, read⟩ := preimage_of_mapM valuesEq there
      have kinded := held.constTyped (typed ops (List.mem_of_getElem? found)) read
      rwa [show kindOf (.ref element) = segment.kind from elementKind] at kinded
  refine ⟨held.pushElement here kinds.1, kinds.2, fun active => ?_⟩
  obtain ⟨ops, place, read⟩ := modeEq active
  rw [place] at placed
  simp only at placed
  split at placed
  · rename_i found
    obtain ⟨_, typed⟩ := (Bool.and_eq_true _ _).mp placed
    obtain ⟨tableType, tableHere, _⟩ := held.agrees.tables found
    exact ⟨held.constTyped typed read, tableType, tableHere⟩
  · cases placed

omit describes in
def entityCount (source : Module) : ExportKind → Nat
  | .func => source.functionCount
  | .table => source.tables.size
  | .memory => source.memory.toList.length
  | .global => source.globals.size

theorem length_memories : sections.memories.length = source.memory.toList.length := by
  have only := describes.memory
  unfold onlyMemory at only
  split at only
  · rename_i absent
    rw [absent, ← Except.ok.inj only]
    rfl
  · rename_i one
    rw [one, ← Except.ok.inj only]
    rfl
  · cases only

theorem known_exports
    (known : Known source context source.functionCount source.tables.size sections.memories.length
      source.globals.size elements) (valid : exportsValid context sections.exports = true)
    (found : source.exports[index]? = some exported) :
    exported.index < entityCount source exported.kind := by
  rw [← getElem?_toList] at found
  obtain ⟨entry, here, supported⟩ := preimage_of_mapM describes.exports found
  simp only [exportsValid, Bool.and_eq_true, all_eq_true] at valid
  have there := valid.1 entry (List.mem_of_getElem? here)
  unfold ExportEntry.supported at supported
  unfold hasEntity at there
  cases kind : entry.kind <;> rw [kind] at supported there <;> cases supported <;>
    simpa [entityCount, known.functions, known.tables, known.memories, known.globals,
      length_memories describes] using there

/-- What follows from a check of everything that stands before the code. -/
structure Prepared (sections : Sections) (source : Module) (context : Context) :
    Prop extends ItemsTyped source where
  known : Known source { context with dataCount := none } source.functionCount source.tables.size
    sections.memories.length source.globals.size source.elements.size
  dataCount : context.dataCount = sections.dataCount
  exports : ∀ {index : Nat} {exported : Export}, source.exports[index]? = some exported →
    exported.index < entityCount source exported.kind
  start : ∀ {function : Nat}, source.start = some function →
    source.functionType function = some ⟨[], []⟩

theorem prepared_of_contextOf (checked : contextOf {} sections = some context) :
    Prepared sections source context := by
  simp only [contextOf, bind_eq_some, pure_def, some.injEq, ensure_eq_some] at checked
  obtain ⟨_, types, _, imports, _, functions, _, tables,
    _, memories, _, tags, _, globals, _, exports, _, _, _, starts,
    _, elements, rfl⟩ := checked
  have withImports := known_imports describes (known_types describes types) imports
  have withFunctions := known_functions describes withImports functions
  have ⟨withTables, tablesTyped⟩ := known_tables describes withFunctions tables
  have withMemories := known_memories describes withTables memories
  have withTags := known_tags withMemories tags
  have ⟨withGlobals, globalsTyped⟩ := known_globals describes withTags globals
  have ⟨withElements, elementsTyped⟩ := known_elements describes rfl withGlobals elements
  refine ⟨⟨tablesTyped, globalsTyped, elementsTyped⟩, ?_, rfl,
    known_exports describes withGlobals exports, ?_⟩
  · refine { withElements with
      agrees := { withElements.agrees with data := ?_ }, dataCount := rfl }
    intro _ found
    simp [Context.hasData] at found
  · intro _ named
    rw [← describes.start] at named
    rw [named] at starts
    simp only [all_some, startValid, beq_iff_eq] at starts
    exact withGlobals.agrees.functionType starts

theorem Prepared.agrees (prepared : Prepared sections source context)
    (counted : sections.dataCount.all (· == sections.data.length) = true) :
    Agrees context source [] := by
  refine { prepared.known.agrees with data := fun found => ?_, locals := fun found => ?_ }
  · rw [Context.hasData, prepared.dataCount] at found
    cases count : sections.dataCount with
    | none =>
      rw [count] at found
      cases found
    | some =>
      rw [count] at found counted
      simp only [Option.any_some, decide_eq_true_eq, all_some, beq_iff_eq] at found counted
      have size := length_of_mapM describes.data
      rw [length_toList] at size
      omega
  · have none : context.locals = #[] := prepared.known.locals
    rw [none] at found
    simp at found

/-! ## Code -/

def codeContext (context : Context) (params locals : List ValType) :
    Context :=
  { context with locals := (params ++ locals).toArray, paramCount := params.length }

/-- The shapes that the check of a body predicts in front of its operators. -/
def codeShapes (context : Context) (typeIndex : Nat) (entry : CodeEntry)
    (index : Nat) : Option Shape :=
  match context.space.signature typeIndex with
  | none => none
  | some signature =>
    match expandLocals context signature.params entry.locals,
        entry.operators.mapM Operator.supported with
    | some locals, .ok ops =>
      shapesOf ops (entriesAt (codeContext context signature.params locals)
        signature.results entry.operators ops) index
    | _, _ => none

omit describes in
theorem map_kindOf_runs {runs : List (Nat × ValType)}
    (expanded : (runs.mapM fun (run : Nat × ValType) =>
      (context.space.valType run.2).map (List.replicate run.1)) = some types)
    (supported : (runs.mapM fun (run : Nat × ValType) => do
      let kind ← run.2.kind
      return List.replicate run.1 kind) = .ok kinds) :
    types.flatten.map kindOf = kinds.flatten := by
  induction runs generalizing types kinds with
  | nil =>
    cases expanded
    cases supported
    rfl
  | cons run runs ih =>
    simp only [List.mapM_cons, bind_eq_some, pure_def, some.injEq,
      map_eq_some_iff] at expanded
    obtain ⟨_, ⟨type, renamed, rfl⟩, _, rest, rfl⟩ := expanded
    simp only [List.mapM_cons, bind_eq_ok] at supported
    obtain ⟨_, ⟨kind, kindEq, first⟩, _, restKinds, same⟩ := supported
    cases first
    cases same
    have sameKind : kindOf type = kind := (kindOf_valType renamed).trans (kindOf_of_kind kindEq)
    rw [List.flatten_cons, List.flatten_cons, map_append, List.map_replicate, sameKind,
      ih rest restKinds]

omit describes in
theorem exists_checked_of_codeValid (agrees : Agrees context source []) {typeIndex : Nat}
    (valid : codeValid context typeIndex entry = true) (supported : entry.body = .ok body)
    (typed : source.types[typeIndex]? = some type) :
    ∃ signature locals ops, context.space.signature typeIndex = some signature ∧
      expandLocals context signature.params entry.locals = some locals ∧
      entry.operators.mapM Operator.supported = .ok ops ∧
      type = signatureKinds signature ∧ body.instructions = annotate ops ∧
      Agrees (codeContext context signature.params locals) source (type.params ++ body.locals) ∧
      bodyTyped (codeContext context signature.params locals) signature.results
        entry.operators = true := by
  unfold codeValid at valid
  split at valid
  · cases valid
  · rename_i signature found
    split at valid
    · cases valid
    · rename_i locals expanded
      have kinds := agrees.signature found
      cases typed.symm.trans kinds
      simp only [CodeEntry.body, bind_eq_ok] at supported
      obtain ⟨runs, runsEq, ops, operatorsEq, same⟩ := supported
      cases same
      have localKinds : locals.map kindOf = runs.flatten := by
        have expanded := expanded
        simp only [expandLocals, bind_eq_some, pure_def, some.injEq] at expanded
        obtain ⟨_, _, types, typesEq, rfl⟩ := expanded
        exact map_kindOf_runs typesEq runsEq
      have inside : Agrees (codeContext context signature.params locals) source
          (signature.params.map kindOf ++ runs.flatten) := by
        refine { agrees with locals := fun here => ?_ }
        rw [← localKinds, ← map_append, getElem?_map]
        rw [codeContext, List.getElem?_toArray] at here
        rw [here]
        rfl
      exact ⟨signature, locals, ops, found, expanded, operatorsEq, rfl, rfl, inside, valid⟩

omit describes in
/-- The check of a body leaves a trace, which gives the shapes that it predicts. -/
theorem exists_trace_of_codeValid (agrees : Agrees context source [])
    (valid : codeValid context typeIndex entry = true)
    (supported : entry.body = .ok body) (typed : source.types[typeIndex]? = some type) :
    ∃ ops entries, Trace source (type.params ++ body.locals) type.results ops entries ∧
      body.instructions = annotate ops ∧
      codeShapes context typeIndex entry = shapesOf ops entries := by
  obtain ⟨_, locals, ops, found, expanded, operatorsEq, rfl, annotated, inside,
    checked⟩ := exists_checked_of_codeValid agrees valid supported typed
  refine ⟨ops, _, trace_of_bodyTyped inside operatorsEq checked, annotated, ?_⟩
  funext index
  rw [codeShapes, found]
  simp only [expanded, operatorsEq]

omit describes in
theorem length_of_pairwise (pairwise : TypeSpace.pairwise agree left right = true) :
    left.length = right.length := by
  induction left generalizing right with
  | nil => cases right <;> first | rfl | cases pairwise
  | cons first _ ih =>
    cases right with
    | nil => cases pairwise
    | cons =>
      simp only [TypeSpace.pairwise, Bool.and_eq_true] at pairwise
      rw [List.length_cons, List.length_cons, ih pairwise.2]

omit describes in
theorem agree_of_pairwise (pairwise : TypeSpace.pairwise agree left right = true) {first : α}
    (leftHere : left[index]? = some first) (rightHere : right[index]? = some second) :
    agree first second = true := by
  induction left generalizing right index with
  | nil => cases leftHere
  | cons _ _ ih =>
    cases right with
    | nil => cases rightHere
    | cons =>
      simp only [TypeSpace.pairwise, Bool.and_eq_true] at pairwise
      cases index with
      | zero =>
        cases leftHere
        cases rightHere
        exact pairwise.1
      | succ index => exact ih pairwise.2 leftHere rightHere

omit describes in
/-- The shapes that validation predicts in front of the operators of a function. -/
def predicted (sections : Sections) (function index : Nat) : Option Shape :=
  match checkModule {} sections with
  | none => none
  | some context =>
    let place := function - sections.imports.length
    match sections.functions[place]?, sections.code[place]? with
    | some typeIndex, some entry => codeShapes context typeIndex entry index
    | _, _ => none

variable (valid : sectionsValid sections = true)

include valid

section

variable (typed : source.functionType function = some type)
  (found : source.body function = some body)

include typed found

theorem exists_codeValid : ∃ context typeIndex entry, checkModule {} sections = some context ∧
      Agrees context source [] ∧
      sections.functions[function - sections.imports.length]? = some typeIndex ∧
      sections.code[function - sections.imports.length]? = some entry ∧
      codeValid context typeIndex entry = true ∧ entry.body = .ok body ∧
      source.types[typeIndex]? = some type := by
  obtain ⟨context, checked⟩ := isSome_iff_exists.mp valid
  have parts := checked
  simp only [checkModule, bind_eq_some, pure_def, some.injEq, ensure_eq_some, contentsValid,
    Bool.and_eq_true] at parts
  obtain ⟨known, checkedContext, _, ⟨⟨code, _⟩, counted⟩, same⟩ := parts
  subst same
  have prepared := prepared_of_contextOf describes checkedContext
  have importCount := length_of_mapM describes.imports
  unfold Module.body at found
  split at found
  · cases found
  · rename_i defined
    have bodyHere : source.bodies.toList[function - source.imports.size]? = some body := by
      rwa [getElem?_toList]
    obtain ⟨entry, entryHere, supported⟩ := preimage_of_mapM describes.bodies bodyHere
    simp only [Module.functionType, Module.functionTypeIndex, if_neg defined,
      bind_eq_some_iff] at typed
    obtain ⟨typeIndex, indexHere, typeHere⟩ := typed
    have functionHere : sections.functions[function - source.imports.size]? = some typeIndex := by
      rw [describes.functions, getElem?_toList, indexHere]
    rw [← importCount]
    exact ⟨known, typeIndex, entry, checked, prepared.agrees describes counted, functionHere,
      entryHere, agree_of_pairwise code functionHere entryHere, supported, typeHere⟩

/-- The check of a module leaves a trace of each body, which gives the shapes that it predicts. -/
theorem exists_trace_predicted : ∃ ops entries,
      Trace source (type.params ++ body.locals) type.results ops entries ∧
      body.instructions = annotate ops ∧ predicted sections function = shapesOf ops entries := by
  obtain ⟨context, typeIndex, entry, checked, agrees, functionHere, entryHere, codeValid, supported,
    typeHere⟩ := exists_codeValid describes valid typed found
  have shapes : predicted sections function = codeShapes context typeIndex entry := by
    funext index
    simp only [predicted, checked, functionHere, entryHere]
  rw [shapes]
  exact exists_trace_of_codeValid agrees codeValid supported typeHere

theorem bodyTyped_predicted : BodyTyped source type body (predicted sections function) := by
  obtain ⟨_, _, trace, annotated, shapes⟩ := exists_trace_predicted describes valid typed found
  rw [shapes]
  exact trace.bodyTyped annotated

theorem delimited_predicted : Delimited source body (predicted sections function) := by
  obtain ⟨_, _, trace, annotated, shapes⟩ := exists_trace_predicted describes valid typed found
  rw [shapes]
  exact trace.delimited annotated

end

theorem moduleTyped_of_valid : ModuleTyped source := by
  obtain ⟨_, checked⟩ := isSome_iff_exists.mp valid
  simp only [checkModule, bind_eq_some, pure_def, some.injEq, ensure_eq_some, contentsValid,
    Bool.and_eq_true] at checked
  obtain ⟨_, checkedContext, _, ⟨⟨code, data⟩, counted⟩, rfl⟩ := checked
  have prepared := prepared_of_contextOf describes checkedContext
  refine ⟨prepared.toItemsTyped, ?_, ?_, ?_, ?_, prepared.start⟩
  · intro function below
    rw [← prepared.known.functions] at below
    have here := Array.getElem?_eq_getElem below
    obtain ⟨type, typeHere⟩ := prepared.known.signatures (Array.mem_of_getElem? here)
    exact ⟨type, by rw [Module.functionType, prepared.known.agrees.functions here]; exact typeHere⟩
  · have codeSize := length_of_mapM describes.bodies
    have sameSize := length_of_pairwise code
    rw [describes.functions, length_toList] at sameSize
    rw [length_toList] at codeSize
    omega
  · intro function type _ typed found
    exact ⟨_, bodyTyped_predicted describes valid typed found⟩
  · intro index segment _ found placed
    obtain ⟨entry, entryHere, supported⟩ :=
      preimage_of_mapM describes.data (getElem?_toList.trans found)
    have entryValid := all_eq_true.mp data entry (List.mem_of_getElem? entryHere)
    unfold DataEntry.segment at supported
    unfold dataValid at entryValid
    cases place : entry.place with
    | none =>
      rw [place] at supported
      cases supported
      cases placed
    | some active =>
      rw [place] at supported entryValid
      simp only [Bool.and_eq_true, decide_eq_true_eq] at entryValid
      obtain ⟨_, value, rfl⟩ := map_eq_ok.mp supported
      cases placed
      refine ⟨prepared.known.agrees.memory (Nat.lt_of_le_of_lt (Nat.zero_le _) entryValid.1), ?_⟩
      have kinded := constTyped_of_agrees (prepared.agrees describes counted) entryValid.2 value
      rwa [prepared.known.globals] at kinded

end

theorem describes_of_parse (core : Sections.ofBytes? bytes = some sections)
    (parsed : Module.parse bytes = .ok source) :
    sectionsValid sections = true ∧ Describes sections source := by
  unfold Module.parse at parsed
  rw [core] at parsed
  simp only at parsed
  split at parsed
  · rename_i valid
    exact ⟨valid, describes_of_module parsed⟩
  · cases parsed

end TwinEngine.Typing
