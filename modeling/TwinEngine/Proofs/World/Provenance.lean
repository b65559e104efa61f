import TwinEngine.Proofs.Compilation.Resolution
import TwinEngine.Proofs.Engine.Units
import TwinEngine.Proofs.Instantiation
import TwinEngine.Proofs.World.Evolution

/-!
Contract: stores whose modules are read from core binaries.

Owns: what it means that a module is read from a binary, that a host function brings in only such
modules, and that the instances of a store are linked with each other and hold what their modules
declare; and that instances keep to it whatever becomes of the others.

`reading` gives the sections of every module. Which binary they stand in does not matter.
-/

namespace TwinEngine

open Typing Lowering

variable (reading : Module → Binary.Sections)

/-! ## Modules and host functions -/

def Module.Reads (source : Module) : Prop :=
  ∃ bytes, Binary.Sections.ofBytes? bytes = some (reading source) ∧ Module.parse bytes = .ok source

def CompiledModule.Reads (compiled : CompiledModule) : Prop :=
  compiled.source.Reads reading ∧ ∃ options, (compiled.source.compile options).outcome =
    .ok compiled

/-- Every module that a program brings in is read, also by the functions that it links it with. -/
inductive HostProgram.Honest : HostProgram → Prop where
  | finish (outcome : Except Trap (List Value)) : Honest (.finish outcome)
  | call {id function : Nat} {args : List Value}
      {next : Except Trap (List Value) → HostProgram} :
      (∀ result, (next result).Honest) → Honest (.call id function args next)
  | invoke {id : Nat} {name : String} {args : List Value}
      {next : Except Error (List Value) → HostProgram} :
      (∀ result, (next result).Honest) → Honest (.invoke id name args next)
  | instantiate {source : Module} {imports : Imports HostProgram} {engine : EngineOptions}
      {next : Except Error Nat → HostProgram} : source.Reads reading →
      (∀ {moduleName name : String} {function : HostFunction HostProgram},
        imports.function? moduleName name = some function →
          ∀ args, (function.run args).Honest) →
      (∀ outcome, (next outcome).Honest) → Honest (.instantiate source imports engine next)
  | instantiateCompiled {compiled : CompiledModule} {imports : Imports HostProgram}
      {next : Except Error Nat → HostProgram} : compiled.Reads reading →
      (∀ {moduleName name : String} {function : HostFunction HostProgram},
        imports.function? moduleName name = some function →
          ∀ args, (function.run args).Honest) →
      (∀ outcome, (next outcome).Honest) → Honest (.instantiateCompiled compiled imports next)
  | changeMemory {id : Nat} {change : Memory → Except Trap Memory}
      {next : Option (Except Trap Unit) → HostProgram} :
      (∀ result, (next result).Honest) → Honest (.changeMemory id change next)
  | observe {id : Nat} {next : Option InstanceView → HostProgram} :
      (∀ view, (next view).Honest) → Honest (.observe id next)
  | interrupt {next : Unit → HostProgram} : (next ()).Honest → Honest (.interrupt next)

def Imports.Honest (imports : Imports HostProgram) : Prop :=
  ∀ {moduleName name : String} {function : HostFunction HostProgram},
    imports.function? moduleName name = some function →
      ∀ args, (function.run args).Honest reading

section Reads

variable {reading} {source : Module} (reads : source.Reads reading)

include reads

theorem Module.Reads.valid : Validation.sectionsValid (reading source) = true := by
  obtain ⟨_, core, parsed⟩ := reads
  exact (describes_of_parse core parsed).1

theorem Module.Reads.describes : Describes (reading source) source := by
  obtain ⟨_, core, parsed⟩ := reads
  exact (describes_of_parse core parsed).2

theorem Module.Reads.fitted : Binary.Fitted source := by
  obtain ⟨_, core, parsed⟩ := reads
  exact Binary.fitted_of_parse core parsed

theorem Module.Reads.typed : ModuleTyped source := moduleTyped_of_valid reads.describes reads.valid

end Reads

/-! ## Code -/

/-- A body is taken to have the shapes that validation predicts. -/
def Interpreted.Code.Reads (code : Interpreted.Code) : Prop :=
  code.source.Reads reading ∧ code.shapes = predicted (reading code.source) code.function

variable {reading}

variable {source : Module} {function : Nat}

theorem Module.Reads.runnable_of_engine (reads : source.Reads reading) {engine : EngineOptions}
    (made : engine.engine source = .ok (.compiled program)) :
    Runnable source (reading source) program := by
  cases engine with
  | interpreted => cases made
  | compiled =>
    obtain ⟨compiled, outcome, made⟩ := bind_eq_ok.mp made
    obtain ⟨_, done, same⟩ := bind_eq_ok.mp made
    cases same
    exact Module.runnable_of_load reads.valid reads.describes outcome done

theorem CompiledModule.Reads.runnable_of_load (reads : compiled.Reads reading)
    (loaded : (Program.load compiled).map Engine.compiled = .ok (.compiled program)) :
    Runnable compiled.source (reading compiled.source) program := by
  obtain ⟨source, _, outcome⟩ := reads
  obtain ⟨_, done, same⟩ := map_eq_ok.mp loaded
  cases same
  exact Module.runnable_of_load source.valid source.describes outcome done

theorem Module.Reads.exists_code (reads : source.Reads reading)
    (defined : source.importCount ≤ function) (declared : source.functionType function = some type)
    : ∃ code : Interpreted.Code, code.Reads reading ∧ code.source = source ∧
      code.function = function ∧ code.type = type := by
  obtain ⟨_, body, typed, found⟩ :=
    reads.typed.exists_body defined (Module.lt_of_functionType declared)
  cases declared.symm.trans typed
  exact ⟨⟨source, function, type, body, predicted (reading source) function, declared, found,
    bodyTyped_predicted reads.describes reads.valid declared found⟩, ⟨reads, rfl⟩, rfl, rfl, rfl⟩

theorem Module.Reads.exists_unit (reads : source.Reads reading)
    (runnable : Runnable source (reading source) program)
    (declared : source.functionType function = some type) :
    ∃ code : Compiled.Code, program.units[function]? = some code.unit ∧ code.source = source ∧
      code.function = function ∧ code.unit.signature = type := by
  obtain ⟨unit, _, found, _, verified, stands⟩ :=
    runnable.stands (Module.lt_of_functionType declared)
  have ready : unit.signature = type ∧ ∃ stances, Machine.Tracked unit stances := by
    cases stands with
    | compiled typeFound bodyFound signature translation =>
      cases declared.symm.trans typeFound
      obtain ⟨translation⟩ := translation
      exact ⟨signature, translation.exists_tracked reads.typed
        (bodyTyped_predicted reads.describes reads.valid declared bodyFound)⟩
    | interpreted typeFound _ delegates | imported typeFound _ delegates =>
      cases declared.symm.trans typeFound
      exact ⟨delegates.signature, delegates.exists_tracked⟩
  obtain ⟨rfl, stances, tracked⟩ := ready
  exact ⟨⟨source, function, unit, stances, declared, tracked, verified,
    runnable.links reads.valid reads.describes reads.fitted found⟩, found, rfl, rfl, rfl⟩

/-! ## Stores -/

variable (reading)

/-- What an import is linked with is a function of a type: an honest one of the host, or one of an
instance that was there before. -/
def ImportTarget.Linked (store : Store) (bound : Nat) (type : FunctionType) : ImportTarget → Prop
  | .host called => called.type = type ∧ ∀ args, (called.run args).Honest reading
  | .function id index =>
    id < bound ∧
      ∃ live, store.instances[id]? = some live ∧ live.source.functionType index = some type

/-- Every instance is one of a module that is read: its state is what the module declares, its
program stands for the module, and its imports are linked. -/
structure Store.Lawful (store : Store) : Prop where
  reads : ∀ {id : Nat} {live : Instance}, store.instances[id]? = some live →
    live.source.Reads reading
  sound : store.Sound
  runs : ∀ {id : Nat} {live : Instance} {program : Program}, store.instances[id]? = some live →
    live.engine = .compiled program → Runnable live.source (reading live.source) program
  links : ∀ {id function : Nat} {live : Instance} {target : ImportTarget},
    store.instances[id]? = some live → live.imports[function]? = some target →
      ∃ type, live.source.functionType function = some type ∧ target.Linked reading store id type

variable {reading}

theorem ImportTarget.Linked.mono {store after : Store} {target : ImportTarget}
    (linked : target.Linked reading store bound type)
    (stays : ∀ {id live}, id < bound → store.instances[id]? = some live →
      ∃ later, after.instances[id]? = some later ∧ later.source = live.source) :
    target.Linked reading after bound type := by
  cases target with
  | host => exact linked
  | function id =>
    obtain ⟨below, live, found, typed⟩ := linked
    obtain ⟨later, here, same⟩ := stays below found
    exact ⟨below, later, here, by rw [same, typed]⟩

namespace Store.Lawful

variable {store after : Store}

variable (lawful : store.Lawful reading)

include lawful

/-- Instances keep to it as long as their state stays in order. -/
theorem of_holds (holds : store.Holds after) (sound : after.Sound) : after.Lawful reading := by
  refine ⟨fun {id later} found => ?_, sound, fun {id later _} found runs => ?_,
    fun {id _ later _} found linked => ?_⟩
  · obtain ⟨live, there, continues⟩ := holds.exists_before found
    rw [continues.source]
    exact lawful.reads there
  · obtain ⟨live, there, continues⟩ := holds.exists_before found
    rw [continues.source]
    exact lawful.runs there (continues.engine.symm.trans runs)
  · obtain ⟨live, there, continues⟩ := holds.exists_before found
    rw [continues.imports] at linked
    obtain ⟨type, declared, answers⟩ := lawful.links there linked
    refine ⟨type, by rw [continues.source, declared], answers.mono fun _ found => ?_⟩
    obtain ⟨last, here, further⟩ := holds.instances found
    exact ⟨last, here, further.source⟩

theorem of_instances (same : after.instances = store.instances) : after.Lawful reading :=
  lawful.of_holds (.of_eq same) (lawful.sound.of_instances same)

/-- Instances do not depend on later ones. -/
theorem truncate (count : Nat) : (store.truncate count).Lawful reading := by
  have earlier {id : Nat} {live : Instance}
      (found : (store.truncate count).instances[id]? = some live) :
      id < count ∧ store.instances[id]? = some live := by
    rw [getElem?_truncate] at found
    split at found
    · exact ⟨‹id < count›, found⟩
    · cases found
  refine ⟨fun found => lawful.reads (earlier found).2,
    fun id live found => lawful.sound id live (earlier found).2,
    fun found => lawful.runs (earlier found).2, fun found linked => ?_⟩
  obtain ⟨below, there⟩ := earlier found
  obtain ⟨type, declared, answers⟩ := lawful.links there linked
  refine ⟨type, declared, answers.mono fun less found => ?_⟩
  exact ⟨_, by rw [getElem?_truncate, if_pos (Nat.lt_trans less below), found], rfl⟩

theorem push {live : Instance} (reads : source.Reads reading)
    (runnable : ∀ {program}, engine = .compiled program → Runnable source (reading source)
      program) (honest : imports.Honest reading)
    (prepares : store.Prepares source imports engine live) :
    Store.Lawful reading { store with instances := store.instances.push live } := by
  have origin := prepares.origin
  have earlier {id : Nat} {later : Instance}
      (found : (store.instances.push live)[id]? = some later) :
      store.instances[id]? = some later ∨ id = store.instances.size ∧ later = live := by
    rw [Array.getElem?_push] at found
    split at found
    · cases found
      exact .inr ⟨‹_›, rfl⟩
    · exact .inl found
  have stays {id : Nat} {later : Instance} (found : store.instances[id]? = some later) :
      ∃ last, (store.instances.push live)[id]? = some last ∧ last.source = later.source := by
    have inside := lt_size found
    refine ⟨later, ?_, rfl⟩
    rw [Array.getElem?_push, if_neg (Nat.ne_of_lt inside), found]
  refine ⟨fun {id later} found => ?_, fun id later found => ?_,
    fun {id later program} found runs => ?_, fun {id function later target} found linked => ?_⟩
  · rcases earlier found with there | ⟨_, rfl⟩
    · exact lawful.reads there
    · rw [origin]
      exact reads
  · rcases earlier found with there | ⟨_, rfl⟩
    · exact lawful.sound _ _ there
    · exact prepares.sound
  · rcases earlier found with there | ⟨_, rfl⟩
    · exact lawful.runs there runs
    · rw [origin]
      exact runnable (prepares.runs.symm.trans runs)
  · rcases earlier found with there | ⟨rfl, rfl⟩
    · obtain ⟨type, declared, answers⟩ := lawful.links there linked
      exact ⟨type, declared, answers.mono fun _ => stays⟩
    · obtain ⟨type, declared, answers⟩ := prepares.answers linked
      refine ⟨type, by rw [origin, declared], ?_⟩
      cases target with
      | host =>
        obtain ⟨same, _, _, given⟩ := answers
        exact ⟨same, honest given⟩
      | function id =>
        obtain ⟨_, there, typed⟩ := answers
        obtain ⟨last, here, same⟩ := stays there
        exact ⟨lt_size there, last, here, by rw [same, typed]⟩

end Store.Lawful

end TwinEngine
