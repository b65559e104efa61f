import TwinEngine.Binary.Section

/-!
Contract: components as they are written.

Owns: the sections of a component and everything that they may hold.

Does not own: readers (`Component.Reader`), or whether a component is valid
(`Component.Validation`).

Things are named by their indices. What an index means depends on where it stands.
-/

namespace TwinEngine.Component

open TwinEngine.Binary

inductive PrimitiveType where
  | bool
  | s8
  | u8
  | s16
  | u16
  | s32
  | u32
  | s64
  | u64
  | f32
  | f64
  | char
  | string
deriving DecidableEq, Repr

inductive ValueNote where
  | primitive (type : PrimitiveType)
  | index (typeIndex : Nat)
deriving DecidableEq, Repr

/-- A case of a variant, and the earlier case that it refines. -/
structure CaseNote where
  name : String
  type : Option ValueNote
  refines : Option Nat
deriving DecidableEq, Repr

inductive DefinedNote where
  | primitive (type : PrimitiveType)
  | record (fields : List (String × ValueNote))
  | variant (cases : List CaseNote)
  | list (item : ValueNote)
  | tuple (items : List ValueNote)
  | flags (names : List String)
  | enumeration (names : List String)
  | option (item : ValueNote)
  | result (success failure : Option ValueNote)
  | own (typeIndex : Nat)
  | borrow (typeIndex : Nat)
deriving DecidableEq, Repr

structure CallableNote where
  params : List (String × ValueNote)
  results : List (Option String × ValueNote)
deriving DecidableEq, Repr

/-- What a component may import, export or pass on. An instance is an instantiated component. -/
inductive ItemKind where
  | coreModule
  | func
  | value
  | type
  | component
  | instantiated
deriving DecidableEq, Repr

inductive ExternNote where
  | coreModule (typeIndex : Nat)
  | func (typeIndex : Nat)
  | value (type : ValueNote)
  | sameType (typeIndex : Nat)
  | resource
  | component (typeIndex : Nat)
  | instantiated (typeIndex : Nat)
deriving DecidableEq, Repr

inductive OuterKind where
  | coreModule
  | coreType
  | type
  | component
deriving DecidableEq, Repr

inductive AliasNote where
  | ofInstance (kind : ItemKind) (index : Nat) (name : String)
  | ofCoreInstance (kind : EntityKind) (index : Nat) (name : String)
  | ofOuter (kind : OuterKind) (count index : Nat)
deriving DecidableEq, Repr

inductive ModuleDeclaration where
  | imported (entry : ImportEntry)
  | types (group : List SubType)
  | outerType (count index : Nat)
  | exported (name : String) (note : ImportNote)
deriving DecidableEq, Repr

inductive CoreTypeNote where
  | types (group : List SubType)
  | coreModule (declarations : List ModuleDeclaration)
deriving DecidableEq, Repr

mutual

inductive TypeNote where
  | defined (note : DefinedNote)
  | func (note : CallableNote)
  | component (declarations : List Declaration)
  | instantiated (declarations : List Declaration)
  | resource (representation : ValType) (destructor : Option Nat)

inductive Declaration where
  | coreType (note : CoreTypeNote)
  | type (note : TypeNote)
  | alias (note : AliasNote)
  | imported (name : String) (note : ExternNote)
  | exported (name : String) (note : ExternNote)

end

inductive CoreInstanceNote where
  | instantiate (moduleIndex : Nat) (arguments : List (String × Nat))
  | exports (entries : List ExportEntry)
deriving DecidableEq, Repr

structure NamedItem where
  name : String
  kind : ItemKind
  index : Nat
deriving DecidableEq, Repr

inductive InstanceNote where
  | instantiate (componentIndex : Nat) (arguments : List NamedItem)
  | exports (items : List NamedItem)
deriving DecidableEq, Repr

/-- How values cross between a component and its core code. -/
inductive CanonicalOption where
  | encoding
  | memory (index : Nat)
  | allocator (function : Nat)
  | afterReturn (function : Nat)
deriving DecidableEq, Repr

inductive CanonicalNote where
  | lift (function : Nat) (options : List CanonicalOption) (typeIndex : Nat)
  | lower (function : Nat) (options : List CanonicalOption)
  | resourceNew (typeIndex : Nat)
  | resourceDrop (typeIndex : Nat)
  | resourceRepresentation (typeIndex : Nat)
deriving DecidableEq, Repr

/-- An item of a component. Function names are advice. -/
inductive Item where
  | coreModule (sections : Sections)
  | component (items : List Item)
  | coreInstance (note : CoreInstanceNote)
  | coreType (note : CoreTypeNote)
  | instantiated (note : InstanceNote)
  | alias (note : AliasNote)
  | type (note : TypeNote)
  | canonical (note : CanonicalNote)
  | imported (name : String) (note : ExternNote)
  | exported (item : NamedItem) (note : Option ExternNote)
  | names (bytes : List UInt8)

end TwinEngine.Component
