import TwinEngine.Instantiation
import TwinEngine.Proofs.Engine.Operators
import TwinEngine.Proofs.Typing.Module

/-!
Contract: what a new instance holds.

Owns: that the state of an instance of a typed module is what the module declares, and that its
imports are linked with functions of the types that it asks for.
-/

namespace TwinEngine

open Typing List Validation

def Initialized (source : Module) (bound : Nat) (globals : Array UInt64) : Prop :=
  ∀ {index : Nat} {global : Global} {payload : UInt64}, index < bound →
    source.globals[index]? = some global → globals[index]? = some payload →
      global.kind.Admits payload

variable {source : Module} {id : Nat}

theorem ConstExpr.admits_evaluate (typed : ConstTyped source bound kind expr)
    (initialized : Initialized source bound globals)
    (evaluated : expr.evaluate globals id = .ok payload) : kind.Admits payload := by
  cases expr with
  | constant value =>
    cases evaluated
    have same : value.value.kind = kind := typed
    exact same ▸ value.value.admits
  | refNull =>
    cases evaluated
    exact ValueKind.admits_of_isRef typed.2 _
  | refFunc =>
    cases evaluated
    rw [typed.2]
    trivial
  | globalGet =>
    obtain ⟨below, _, declared, rfl⟩ := typed
    simp only [evaluate] at evaluated
    split at evaluated
    · rename_i found
      cases evaluated
      exact initialized below declared found
    · cases evaluated

namespace Instance

theorem initialized_of_initialGlobals {globals : Array UInt64} (typed : ModuleTyped source)
    (made : initialGlobals source id = .ok globals) :
    globals.size = source.globals.size ∧
      Initialized source source.globals.size globals := by
  refine foldlM_keeps
    (fun done globals => globals.size = done.length ∧ Initialized source done.length globals)
    ⟨rfl, fun below => absurd below (Nat.not_lt_zero _)⟩ ?_ made
  intro done global _ _ declared held stepped
  obtain ⟨size, initialized⟩ := held
  obtain ⟨_, evaluated, same⟩ := bind_eq_ok.mp stepped
  cases same
  rw [Array.getElem?_toList] at declared
  refine ⟨by simp [size], fun {_ _ _} below found here => ?_⟩
  rw [Array.getElem?_push] at here
  split at here
  · rename_i last
    cases here
    rw [last, size, declared] at found
    cases found
    exact ConstExpr.admits_evaluate (typed.globals declared) initialized evaluated
  · rw [length_append, length_singleton] at below
    exact initialized (by omega) found here

theorem isSome_of_initialMemory {memory : Option Memory}
    (made : initialMemory source = .ok memory) : memory.isSome = source.memory.isSome := by
  unfold initialMemory at made
  split at made
  · rename_i absent
    cases made
    rw [absent]
    rfl
  · rename_i declared
    rw [declared]
    split at made <;> cases made
    rfl

theorem element_of_initialTable {globals : Array UInt64} {table : Table}
    (made : initialTable globals id type = .ok table) : table.element = type.element := by
  unfold initialTable at made
  split at made
  · obtain ⟨_, _, same⟩ := bind_eq_ok.mp made
    cases same
    rfl
  · cases made
    rfl

/-! ## Active segments -/

variable {live : Instance}

/-- What each change of an instance keeps, all of them keep. -/
theorem Setup.each_keeps {setup : α → Setup} {holds : Instance → Prop} {items : List α}
    (keeps : ∀ item ∈ items, ∀ {now}, holds now → holds (setup item now).2) (held : holds live) :
    holds (each setup items live).2 := by
  induction items generalizing live with
  | nil => exact held
  | cons item items ih =>
    have next := keeps item mem_cons_self held
    rw [each, andThen]
    split
    · rename_i same
      rw [same] at next
      exact ih (fun other member => keeps other (mem_cons_of_mem _ member)) next
    · exact next

theorem applySegments_keeps {holds : Instance → Prop}
    (elements : ∀ entry ∈ source.elements.toList.zipIdx, ∀ {now}, holds now →
      holds (applyElement id entry now).2)
    (data : ∀ entry ∈ source.data.toList.zipIdx, ∀ {now}, holds now →
      holds (applyData id entry now).2) (held : holds live) :
    holds (applySegments source id live).2 := by
  have first := Setup.each_keeps elements held
  rw [applySegments, Setup.andThen]
  split
  · rename_i same
    rw [same] at first
    exact Setup.each_keeps data first
  · exact first

/-- Copying a segment keeps what the copying itself keeps, and the emptying. -/
theorem copyActive_keeps {holds : Instance → Prop} {copy : Nat → Effect Instance Unit}
    {drop : Instance → Instance} (copies : ∀ place, holds (copy place live).2)
    (drops : ∀ {now}, holds now → holds (drop now)) (held : holds live) :
    holds (copyActive id offset copy drop live).2 := by
  unfold copyActive
  split
  · exact held
  · rename_i place _
    have copied := copies place
    split
    · rename_i same
      rwa [same] at copied
    · rename_i same
      rw [same] at copied
      exact drops copied

theorem settles_applySegments (source : Module) (live : Instance) (id : Nat) :
    Settles live (applySegments source id live).2 := by
  refine applySegments_keeps (fun entry _ {now} settles => ?_) (fun entry _ {now} settles => ?_)
    (.refl live)
  · have drops {now : Instance} (settles : Settles live now) :
        Settles live (now.dropElements entry.2) :=
      settles.trans (gentle_dropElements entry.2 now)
    rw [applyElement]
    cases entry.1.mode with
    | passive => exact settles
    | declared => exact drops settles
    | active =>
      exact copyActive_keeps (fun _ => settles.trans (gentle_initTable _ _ _ _ _ now)) drops settles
  · rw [applyData]
    cases entry.1.offset with
    | none => exact settles
    | some =>
      exact copyActive_keeps (fun _ => settles.trans (gentle_initMemory _ _ _ _ now))
        (fun settles => settles.trans (gentle_dropData entry.2 _)) settles

end Instance

/-! ## Imports -/

/-- What an import is linked with is a function of a type: one of the host functions that were
given, or one of an instance of the store. -/
def ImportTarget.Answers (store : Store) (imports : Imports HostProgram) (type : FunctionType) :
    ImportTarget → Prop
  | .host called =>
    called.type = type ∧ ∃ moduleName name, imports.function? moduleName name = some called
  | .function id index =>
    ∃ live, store.instances[id]? = some live ∧ live.source.functionType index = some type

namespace Store

variable {store : Store} {imports : Imports HostProgram}

theorem answers_of_importTarget (found : store.importTarget imports entry = .ok (target, type)) :
    target.Answers store imports type := by
  unfold importTarget at found
  split at found
  · rename_i given
    cases found
    exact ⟨rfl, _, _, given⟩
  · split at found
    · cases found
    · split at found
      · cases found
      · rename_i live here
        split at found
        · cases found
        · split at found
          · cases found
          · rename_i typed
            cases found
            exact ⟨live, here, typed⟩

theorem answers_of_resolveImport
    (resolved : store.resolveImport source imports entry = .ok target) :
    ∃ type, source.types[entry.typeIndex]? = some type ∧ target.Answers store imports type := by
  unfold resolveImport at resolved
  split at resolved
  · cases resolved
  · rename_i declared
    obtain ⟨⟨_, _⟩, found, chosen⟩ := bind_eq_ok.mp resolved
    dsimp only at chosen
    split at chosen
    · rename_i same
      cases chosen
      subst same
      exact ⟨_, declared, answers_of_importTarget found⟩
    · cases chosen

/-- What is known of a new instance of a typed module. -/
structure Prepares (store : Store) (source : Module)
    (imports : Imports HostProgram) (engine : Engine) (live : Instance) : Prop where
  origin : live.source = source
  runs : live.engine = engine
  sound : live.Sound
  answers : ∀ {function : Nat} {target : ImportTarget}, live.imports[function]? = some target →
    ∃ type, source.functionType function = some type ∧ target.Answers store imports type

/-- The state of an instance before its active segments are copied. -/
theorem sound_of_parts (typed : ModuleTyped source)
    (globalsMade : Instance.initialGlobals source id = .ok globals)
    (memoryMade : Instance.initialMemory source = .ok memory)
    (tablesMade : source.tables.toList.mapM (Instance.initialTable globals id) = .ok tables)
    (elementsMade :
      source.elements.toList.mapM (Instance.initialElements globals id) = .ok elements) :
    Instance.Sound
      { source, engine, imports := targets, memory, globals
        tables := tables.toArray
        data := source.data.map (·.bytes.toByteArray)
        elements := elements.toArray } := by
  obtain ⟨size, initialized⟩ := Instance.initialized_of_initialGlobals typed globalsMade
  refine
    { globals := size
      global := fun declared here => initialized (lt_size declared) declared here
      tables := ?_
      references := fun declared => (typed.tables declared).1
      memory := Instance.isSome_of_initialMemory memoryMade
      data := by simp
      elements := by simpa using length_of_mapM elementsMade }
  apply Array.ext_getElem?
  intro index
  simp only [Array.getElem?_map, getElem?_toArray]
  cases here : tables[index]? with
  | some table =>
    obtain ⟨type, listed, made⟩ := preimage_of_mapM tablesMade here
    rw [Array.getElem?_toList] at listed
    simp [listed, Instance.element_of_initialTable made]
  | none =>
    have beyond := List.getElem?_eq_none_iff.mp here
    rw [length_of_mapM tablesMade, Array.length_toList] at beyond
    rw [Array.getElem?_eq_none beyond]
    rfl

/-- The instance that is left in the store, where its segments could be copied. -/
def prepare (store : Store) (source : Module) (imports : Imports HostProgram) (engine : Engine) :
    Except Error Instance := do
  let live ← store.allocate source imports engine
  match Instance.applySegments source store.instances.size live with
  | (.ok (), live) => .ok live
  | (.error error, _) => .error error

/-- Copying the segments of an instance that was just added changes only that instance. -/
theorem applySegments_push (store : Store) (source : Module) (live : Instance) :
    applySegments { store with instances := store.instances.push live } source
        store.instances.size =
      ((Instance.applySegments source store.instances.size live).1,
        { store with
          instances := store.instances.push
            (Instance.applySegments source store.instances.size live).2 }) := by
  have found : (instances { store with instances := store.instances.push live })[
      store.instances.size]? = some live := by simp
  have replaced (later : Instance) : (store.instances.push live).setIfInBounds store.instances.size
      later = store.instances.push later := by
    apply Array.ext_getElem?
    intro index
    rw [Array.getElem?_setIfInBounds, Array.getElem?_push, Array.getElem?_push, Array.size_push]
    grind
  rw [applySegments, access_eq found]
  simp only [put, replaced]

theorem truncate_push (store : Store) (live : Instance) :
    truncate { store with instances := store.instances.push live } store.instances.size =
      store := by
  simp [truncate]

theorem size_lt_of_prepare (made : store.prepare source imports engine = .ok live) :
    store.instances.size < maxInstances := by
  refine Nat.lt_of_not_le fun full => ?_
  simp [prepare, allocate, full, bind, Except.bind] at made

theorem exists_of_prepare (prepared : store.prepare source imports engine = .ok live) :
    ∃ fresh, store.allocate source imports engine = .ok fresh ∧
      Instance.applySegments source store.instances.size fresh = (.ok (), live) := by
  obtain ⟨fresh, allocated, prepared⟩ := bind_eq_ok.mp prepared
  refine ⟨fresh, allocated, ?_⟩
  split at prepared <;> cases prepared
  assumption

theorem source_of_allocate (made : store.allocate source imports engine = .ok live) :
    live.source = source := by
  unfold allocate at made
  dsimp only at made
  split at made
  · cases made
  obtain ⟨_, _, made⟩ := bind_eq_ok.mp made
  obtain ⟨_, _, made⟩ := bind_eq_ok.mp made
  obtain ⟨_, _, made⟩ := bind_eq_ok.mp made
  obtain ⟨_, _, made⟩ := bind_eq_ok.mp made
  obtain ⟨_, _, made⟩ := bind_eq_ok.mp made
  cases made
  rfl

theorem source_of_prepare (made : store.prepare source imports engine = .ok live) :
    live.source = source := by
  obtain ⟨fresh, allocated, applied⟩ := exists_of_prepare made
  have settles := Instance.settles_applySegments source fresh store.instances.size
  rw [applied] at settles
  exact settles.source.trans (source_of_allocate allocated)

theorem prepares_of_prepare (typed : ModuleTyped source)
    (prepared : store.prepare source imports engine = .ok live) :
    Prepares store source imports engine live := by
  obtain ⟨fresh, prepared, applied⟩ := exists_of_prepare prepared
  have settles := Instance.settles_applySegments source fresh store.instances.size
  rw [applied] at settles
  unfold allocate at prepared
  dsimp only at prepared
  split at prepared
  · cases prepared
  obtain ⟨_, resolved, prepared⟩ := bind_eq_ok.mp prepared
  obtain ⟨_, globalsMade, prepared⟩ := bind_eq_ok.mp prepared
  obtain ⟨_, memoryMade, prepared⟩ := bind_eq_ok.mp prepared
  obtain ⟨_, tablesMade, prepared⟩ := bind_eq_ok.mp prepared
  obtain ⟨_, elementsMade, prepared⟩ := bind_eq_ok.mp prepared
  have sound : fresh.Sound := by
    cases prepared
    exact sound_of_parts typed globalsMade memoryMade tablesMade elementsMade
  cases prepared
  refine ⟨settles.source, settles.engine, sound.settles settles, fun {_ _} found => ?_⟩
  rw [settles.imports, getElem?_toArray] at found
  obtain ⟨_, listed, linked⟩ := preimage_of_mapM resolved found
  rw [Array.getElem?_toList] at listed
  obtain ⟨type, declared, answers⟩ := answers_of_resolveImport linked
  refine ⟨type, ?_, answers⟩
  rw [Module.functionType, Module.functionTypeIndex, if_pos (lt_size listed), listed]
  exact declared

end Store

end TwinEngine
