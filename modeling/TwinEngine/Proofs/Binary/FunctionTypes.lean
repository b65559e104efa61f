import TwinEngine.Proofs.Typing.Module

/-!
Contract: the type indices of the functions of modules that were read.

Owns: that every function of such a module has a type, whether its bytes are those of a module or of
a component.

The modules of a component are joined with their indices as they are. A type index stays inside the
types, since joining only adds to these.
-/

namespace TwinEngine

open Binary Option Array

namespace Validation

/-- The type indices of the functions that sections import and define are inside their types. -/
structure Indexed (sections : Sections) : Prop where
  imports : ∀ entry ∈ sections.imports, ∀ {typeIndex : Nat}, entry.note = .func typeIndex →
    typeIndex < sections.types.flatten.length
  functions : ∀ typeIndex ∈ sections.functions, typeIndex < sections.types.flatten.length

theorem size_addGroup {space after : TypeSpace} (added : space.addGroup group = some after) :
    after.indices.size = space.indices.size + group.length := by
  unfold TypeSpace.addGroup at added
  dsimp only at added
  split at added
  · cases added
  · split at added
    · cases added
      simp
    · split at added
      · cases added
      · obtain ⟨_, rfl⟩ := Typing.checkGroup_eq added
        simp

/-- Every type of a module has an index, whatever is stored already. -/
theorem size_of_groups {stored space : TypeSpace} {groups : List (List SubType)}
    (added : groups.foldlM TypeSpace.addGroup stored.fresh = some space) :
    space.indices.size = groups.flatten.length := by
  refine foldlM_invariant (fun done space => space.indices.size = done.flatten.length)
    rfl ?_ added
  intro done _ _ _ _ size stepped
  rw [size_addGroup stepped, size]
  simp

theorem lt_of_isFunctionType (found : isFunctionType context typeIndex = true) :
    typeIndex < context.space.indices.size := by
  obtain ⟨signature, found⟩ := isSome_iff_exists.mp found
  unfold TypeSpace.signature TypeSpace.compositeAt at found
  split at found
  · rename_i composite
    obtain ⟨_, here, _⟩ := bind_eq_some_iff.mp composite
    exact lt_size here
  · cases found

theorem addFunction_eq_some (added : addFunction context typeIndex = some after) :
    after.space = context.space ∧ typeIndex < context.space.indices.size := by
  simp only [addFunction, bind_eq_some, pure_def, some.injEq, ensure_eq_some] at added
  obtain ⟨_, isFunction, rfl⟩ := added
  exact ⟨rfl, lt_of_isFunctionType isFunction⟩

theorem addImport_eq_some (added : addImport context entry = some after) :
    after.space = context.space ∧ ∀ {typeIndex}, entry.note = .func typeIndex →
      typeIndex < context.space.indices.size := by
  unfold addImport at added
  split at added
  · rename_i typeIndex note
    obtain ⟨space, inside⟩ := addFunction_eq_some added
    refine ⟨space, fun {other} same => ?_⟩
    cases note.symm.trans same
    exact inside
  all_goals
    rename_i note
    refine ⟨?_, fun {other} same => by rw [note] at same; cases same⟩
    simp only [addTableNote, addMemory, addTag, bind_eq_some, pure_def, some.injEq] at added
  · obtain ⟨_, _, _, _, rfl⟩ := added
    rfl
  · obtain ⟨_, _, _, _, rfl⟩ := added
    rfl
  · obtain ⟨_, _, rfl⟩ := added
    rfl
  · obtain ⟨_, _, rfl⟩ := added
    rfl

theorem indexed_of_contextOf {context : Context}
    (checked : contextOf stored sections = some context) : Indexed sections := by
  simp only [contextOf, bind_eq_some] at checked
  obtain ⟨space, added, _, imports, _, functions, _⟩ := checked
  have size := size_of_groups added
  obtain ⟨sameSpace, inside⟩ := foldlM_invariant
    (fun done context => context.space = space ∧ ∀ entry ∈ done, ∀ {typeIndex},
      entry.note = .func typeIndex → typeIndex < space.indices.size)
    ⟨rfl, fun _ member => absurd member List.not_mem_nil⟩ (by
      intro done entry before after _ held stepped
      obtain ⟨kept, inside⟩ := addImport_eq_some stepped
      refine ⟨kept.trans held.1, fun other member {typeIndex} note => ?_⟩
      rcases List.mem_append.mp member with earlier | here
      · exact held.2 other earlier note
      · rw [List.mem_singleton.mp here] at note
        rw [← held.1]
        exact inside note) imports
  obtain ⟨_, within⟩ := foldlM_invariant
    (fun done context => context.space = space ∧ ∀ typeIndex ∈ done, typeIndex < space.indices.size)
    ⟨sameSpace, fun _ member => absurd member List.not_mem_nil⟩ (by
      intro done entry before after _ held stepped
      obtain ⟨kept, inside⟩ := addFunction_eq_some stepped
      refine ⟨kept.trans held.1, fun other member => ?_⟩
      rcases List.mem_append.mp member with earlier | here
      · exact held.2 other earlier
      · rw [List.mem_singleton.mp here, ← held.1]
        exact inside) functions
  rw [size] at inside within
  exact ⟨inside, within⟩

theorem indexed_of_checkModule (checked : checkModule stored sections = some context) :
    Indexed sections := by
  simp only [checkModule, bind_eq_some] at checked
  obtain ⟨_, before, _⟩ := checked
  exact indexed_of_contextOf before

end Validation

/-! ## Components -/

namespace Component

open Validation (Indexed)

theorem indexed_of_addModule (added : (Check.addModule sections).run before = some after) :
    Indexed sections := by
  simp only [Check.addModule, StateT.run_bind, bind_eq_some] at added
  obtain ⟨⟨_, _⟩, _, ⟨_, _⟩, given, _⟩ := added
  simp only [Check.given, StateT.run_lift, bind_eq_some] at given
  obtain ⟨_, checked, _⟩ := given
  exact Validation.indexed_of_checkModule checked

mutual

theorem indexed_of_addItem : (item : Item) → ∀ {before after},
    (Check.addItem item).run before = some after → ∀ sections ∈ item.sections, Indexed sections
  | .coreModule sections, _, _, added, other, member => by
      rw [List.mem_singleton.mp member]
      exact indexed_of_addModule added
  | .component items, before, after, added, sections, member => by
      simp only [Check.addItem, Check.inside, StateT.run_bind, bind_eq_some] at added
      obtain ⟨_, ⟨_, _, _, _, _, inner, _⟩, _⟩ := added
      exact indexed_of_addItems items inner sections member
  | .names bytes, _, _, _, sections, member => by
      rw [List.mem_singleton.mp member]
      constructor <;> simp
  | .coreInstance _, _, _, _, _, member => nomatch member
  | .coreType _, _, _, _, _, member => nomatch member
  | .instantiated _, _, _, _, _, member => nomatch member
  | .alias _, _, _, _, _, member => nomatch member
  | .type _, _, _, _, _, member => nomatch member
  | .canonical _, _, _, _, _, member => nomatch member
  | .imported _ _, _, _, _, _, member => nomatch member
  | .exported _ _, _, _, _, _, member => nomatch member

theorem indexed_of_addItems : (items : List Item) →
    ∀ {before after}, (Check.addItems items).run before = some after →
    ∀ sections ∈ sectionsOf items, Indexed sections
  | [], _, _, _, _, member => nomatch member
  | item :: rest, before, after, added, sections, member => by
      simp only [Check.addItems, StateT.run_bind, bind_eq_some] at added
      obtain ⟨_, first, others⟩ := added
      rcases List.mem_append.mp member with here | later
      · exact indexed_of_addItem item first sections here
      · exact indexed_of_addItems rest others sections later

end

end Component

/-! ## Modules that were read -/

namespace Module

/-- The type index of every function of a module is inside its types. -/
structure Indexed (source : Module) : Prop where
  imports : ∀ entry ∈ source.imports, entry.typeIndex < source.types.size
  functions : ∀ typeIndex ∈ source.functions, typeIndex < source.types.size

variable {source : Module} {function : Nat}

theorem Indexed.exists_type (indexed : source.Indexed) (inside : function < source.functionCount) :
    ∃ type, source.functionType function = some type := by
  have within : ∀ {index}, index < source.types.size → ∃ type, source.types[index]? = some type :=
    fun below => ⟨_, getElem?_eq_getElem below⟩
  unfold functionType functionTypeIndex
  by_cases imported : function < source.imports.size
  · rw [if_pos imported, getElem?_eq_getElem imported]
    exact within (indexed.imports _ (getElem_mem imported))
  · have below : function - source.imports.size < source.functions.size := by
      unfold functionCount at inside
      omega
    rw [if_neg imported, getElem?_eq_getElem below]
    exact within (indexed.functions _ (getElem_mem below))

theorem Indexed.extending (indexed : source.Indexed) (inside : Validation.Indexed sections)
    (joined : Sections.extending source sections = .ok after) : after.Indexed := by
  simp only [Sections.extending, bind_eq_ok] at joined
  obtain ⟨types, typesEq, imports, importsEq, _, _, _, _, _, _, _, _,
    _, _, _, _, _, _, same⟩ := joined
  cases same
  have size : (source.types ++ types).size = source.types.size + sections.types.flatten.length := by
    rw [← Array.length_toList, toList_appendList, List.length_append, Array.length_toList,
      length_of_mapM typesEq]
  refine ⟨fun entry member => ?_, fun typeIndex member => ?_⟩
  · simp only [← mem_toList_iff, toList_appendList, List.mem_append] at member
    rcases member with earlier | added
    · have := indexed.imports entry (mem_toList_iff.mp earlier)
      dsimp only
      omega
    · obtain ⟨_, here⟩ := List.mem_iff_getElem?.mp added
      obtain ⟨written, listed, supported⟩ := preimage_of_mapM importsEq here
      unfold ImportEntry.functionImport at supported
      split at supported
      · rename_i typeIndex note
        cases supported
        have := inside.imports written (List.mem_of_getElem? listed) note
        dsimp only
        omega
      · cases supported
  · simp only [← mem_toList_iff, toList_appendList, List.mem_append] at member
    rcases member with earlier | added
    · have := indexed.functions typeIndex (mem_toList_iff.mp earlier)
      dsimp only
      omega
    · have := inside.functions typeIndex added
      dsimp only
      omega

theorem Indexed.joining (indexed : source.Indexed) {all : List Sections}
    (inside : ∀ sections ∈ all, Validation.Indexed sections)
    (joined : all.foldlM Sections.extending source = .ok after) : after.Indexed := by
  induction all generalizing source with
  | nil =>
    cases joined
    exact indexed
  | cons sections _ ih =>
    obtain ⟨_, first, joined⟩ := bind_eq_ok.mp joined
    exact ih (indexed.extending (inside sections List.mem_cons_self) first)
      (fun other member => inside other (List.mem_cons_of_mem _ member)) joined

theorem exists_functionType {bytes : List UInt8} (parsed : Module.parse bytes = .ok source)
    (inside : function < source.functionCount) :
    ∃ type, source.functionType function = some type := by
  refine Indexed.exists_type ?_ inside
  have empty : Indexed ({} : Module) := by constructor <;> simp
  unfold Module.parse at parsed
  split at parsed
  · split at parsed
    · rename_i valid
      obtain ⟨_, checked⟩ := isSome_iff_exists.mp valid
      exact empty.extending (Validation.indexed_of_checkModule checked) parsed
    · cases parsed
  · split at parsed
    · split at parsed
      · rename_i valid
        unfold Component.itemsValid at valid
        split at valid
        · rename_i added
          exact empty.joining (Component.indexed_of_addItems _ added) parsed
        · cases valid
      · cases parsed
    · cases parsed

end Module

end TwinEngine
