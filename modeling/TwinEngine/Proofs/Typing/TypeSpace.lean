import TwinEngine.Proofs.Validation

/-!
Contract: the signatures of a type space have the kinds that were written.

Owns: what adding groups of definitions keeps, and the kinds of a stored signature.

A definition is stored with numbers in place of indices, and a group that repeats an earlier one is
not stored again. Either way what is stored is what was written up to names of types, and a kind
does not depend on these.
-/

namespace TwinEngine.Typing

open Binary List Option
open Validation (kindOf signatureKinds)

/-! ## Kinds of signatures -/

theorem map_kindOf_rename {types renamed : List ValType}
    (same : types.mapM (ValType.rename target) = some renamed) :
    renamed.map kindOf = types.map kindOf := by
  induction types generalizing renamed with
  | nil =>
    cases same
    rfl
  | cons _ types ih =>
    simp only [mapM_cons, bind_eq_some, Option.pure_def, some.injEq] at same
    obtain ⟨_, here, _, there, rfl⟩ := same
    rw [map_cons, map_cons, Validation.kindOf_rename here, ih there]

theorem map_kindOf_of_kinds {types : List ValType}
    (supported : types.mapM ValType.kind = .ok kinds) : types.map kindOf = kinds := by
  induction types generalizing kinds with
  | nil =>
    cases supported
    rfl
  | cons _ types ih =>
    simp only [mapM_cons, bind_eq_ok] at supported
    obtain ⟨_, here, _, there, ⟨⟩⟩ := supported
    rw [map_cons, Validation.kindOf_of_kind here, ih there]

/-- The kinds of a signature do not depend on the names of types. -/
theorem signatureKinds_of_rename {written signature : Signature}
    (renamed : written.rename target = some signature) :
    signatureKinds signature = signatureKinds written := by
  simp only [Signature.rename, bind_eq_some, Option.pure_def, some.injEq] at renamed
  obtain ⟨_, sameParams, _, sameResults, rfl⟩ := renamed
  simp only [signatureKinds, map_kindOf_rename sameParams, map_kindOf_rename sameResults]

theorem functionType_eq {written : Signature} (supported : written.functionType = .ok type) :
    type = signatureKinds written := by
  unfold Signature.functionType at supported
  simp only [bind_eq_ok] at supported
  obtain ⟨_, params, _, results, ⟨⟩⟩ := supported
  simp [signatureKinds, map_kindOf_of_kinds params, map_kindOf_of_kinds results]

theorem composite_of_rename {written known : SubType} (renamed : written.rename target = some known)
    (function : known.composite = .func signature) :
    ∃ original, written.composite = .func original ∧
      signatureKinds signature = signatureKinds original := by
  have composites : written.composite.rename target = some known.composite := by
    simp only [SubType.rename, bind_eq_some] at renamed
    obtain ⟨composite, same, rest⟩ := renamed
    cases super : written.supertype with
    | none =>
      rw [super] at rest
      cases rest
      exact same
    | some =>
      rw [super] at rest
      simp only [bind_eq_some, Option.pure_def, some.injEq] at rest
      obtain ⟨_, _, rfl⟩ := rest
      exact same
  rw [function] at composites
  cases composite : written.composite with
  | func original =>
    rw [composite, CompositeType.rename, map_eq_some_iff] at composites
    obtain ⟨_, same, injected⟩ := composites
    cases injected
    exact ⟨original, rfl, signatureKinds_of_rename same⟩
  | array cell | struct fields =>
    rw [composite, CompositeType.rename, map_eq_some_iff] at composites
    obtain ⟨_, _, absurd⟩ := composites
    cases absurd

/-! ## Stored definitions -/

/-- A type space stores the definitions that were written, up to names of types. -/
structure Stores (written : List SubType) (space : TypeSpace) : Prop where
  size : space.indices.size = written.length
  groups : ∀ {group : Nat × List SubType}, group ∈ space.groups → ∀ {place : Nat} {known : SubType},
    group.2[place]? = some known → space.definitions[group.1 + place]? = some known
  defined : ∀ {index : Nat} {type : SubType}, written[index]? = some type →
    ∃ number known target, space.indices[index]? = some number ∧
      space.definitions[number]? = some known ∧ type.rename target = some known

theorem checkGroup_eq {space space' : TypeSpace} (checked : space.checkGroup types = some space') :
    ∃ depths, space' = { space with depths } := by
  induction types generalizing space with
  | nil =>
    cases checked
    exact ⟨space'.depths, rfl⟩
  | cons _ types ih =>
    unfold TypeSpace.checkGroup at checked
    split at checked
    · obtain ⟨depths, rfl⟩ := ih checked
      exact ⟨depths, rfl⟩
    · split at checked
      · split at checked
        · obtain ⟨depths, rfl⟩ := ih checked
          exact ⟨depths, rfl⟩
        · cases checked
      · cases checked

/-- Definitions whose numbers follow each other are found behind those before them. -/
theorem defined_of_group {space : TypeSpace} {first : Nat} {definitions : Array SubType}
    {target : Nat → Option Nat} (stores : Stores written space)
    (renamed : group.mapM (SubType.rename target) = some known)
    (kept : ∀ {number : Nat} {type : SubType}, space.definitions[number]? = some type →
      definitions[number]? = some type)
    (placed : ∀ {place : Nat} {type : SubType}, known[place]? = some type →
      definitions[first + place]? = some type) {index : Nat} {type : SubType}
    (found : (written ++ group)[index]? = some type) : ∃ number known target,
      (space.indices ++ ((List.range group.length).map (first + ·)).toArray)[index]? = some number ∧
      definitions[number]? = some known ∧ type.rename target = some known := by
  rcases Nat.lt_or_ge index written.length with early | late
  · rw [getElem?_append_left early] at found
    obtain ⟨number, known, target, here, stored, same⟩ := stores.defined found
    refine ⟨number, known, target, ?_, kept stored, same⟩
    rw [Array.getElem?_append_left (by rw [stores.size]; exact early), here]
  · rw [getElem?_append_right late] at found
    have each := congrArg (·[index - written.length]?) (mapM_eq_some.mp renamed)
    simp only [getElem?_map, found, map_some] at each
    obtain ⟨image, here, same⟩ := map_eq_some_iff.mp each.symm
    have below := lt_length found
    refine ⟨first + (index - written.length), image, target, ?_, placed here, same.symm⟩
    rw [Array.getElem?_append_right (by rw [stores.size]; exact late), stores.size]
    simp [below]

theorem Stores.addGroup {written group : List SubType} {space space' : TypeSpace}
    (stores : Stores written space) (added : space.addGroup group = some space') :
    Stores (written ++ group) space' := by
  unfold TypeSpace.addGroup at added
  simp only at added
  split at added
  · cases added
  · split at added
    · rename_i found
      cases added
      simp only [TypeSpace.findGroup, map_eq_some_iff] at found
      obtain ⟨⟨_, known⟩, found, rfl⟩ := found
      have member := mem_of_find?_eq_some found
      have matching := find?_some found
      simp only [Bool.and_eq_true, beq_iff_eq] at matching
      constructor
      · simp [stores.size]
      · exact stores.groups
      · exact defined_of_group stores matching.2 id (stores.groups member)
    · split at added
      · cases added
      · rename_i known renamed
        obtain ⟨_, rfl⟩ := checkGroup_eq added
        have kept : ∀ {number : Nat} {type : SubType}, space.definitions[number]? = some type →
            (space.definitions ++ known.toArray)[number]? = some type := by
          intro number type here
          rw [Array.getElem?_append_left (lt_size here), here]
        have placed : ∀ {place : Nat} {type : SubType}, known[place]? = some type →
            (space.definitions ++ known.toArray)[space.definitions.size + place]? = some type := by
          intro place type here
          rw [Array.getElem?_append_right (by omega)]
          simpa using here
        constructor
        · simp [stores.size]
        · intro group member place type here
          rcases mem_cons.mp member with same | older
          · subst same
            exact placed here
          · exact kept (stores.groups older here)
        · exact defined_of_group stores renamed kept placed

theorem stores_of_foldlM {groups : List (List SubType)} {space : TypeSpace}
    (added : groups.foldlM TypeSpace.addGroup (TypeSpace.fresh {}) = some space) :
    Stores groups.flatten space := by
  refine foldlM_invariant (fun done space => Stores done.flatten space) ?_ ?_ added
  · exact ⟨rfl, fun member => absurd member not_mem_nil, fun found => nomatch found⟩
  · intro done _ _ _ _ stores stepped
    rw [flatten_append, flatten_singleton]
    exact stores.addGroup stepped

theorem Stores.signature (stores : Stores written space)
    (supported : written.mapM SubType.functionType = .ok types) {signature : Signature}
    (found : space.signature index = some signature) :
    types[index]? = some (signatureKinds signature) := by
  unfold TypeSpace.signature at found
  split at found
  · rename_i composite
    cases found
    simp only [TypeSpace.compositeAt, TypeSpace.composite, bind_eq_some_iff,
      map_eq_some_iff] at composite
    obtain ⟨_, here, _, stored, function⟩ := composite
    have below : index < written.length := by
      rw [← stores.size]
      exact lt_size here
    have there := getElem?_eq_getElem below
    obtain ⟨_, _, _, here', stored', renamed⟩ := stores.defined there
    cases here.symm.trans here'
    cases stored.symm.trans stored'
    obtain ⟨_, isFunction, kinds⟩ := composite_of_rename renamed function
    obtain ⟨_, typeHere, typeSame⟩ := image_of_mapM supported there
    rw [typeHere, kinds]
    simp only [SubType.functionType, isFunction] at typeSame
    rw [functionType_eq typeSame]
  · cases found

end TwinEngine.Typing
