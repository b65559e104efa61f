import TwinEngine.Component.Note

/-!
Contract: reading components.

Owns: the readers of everything in `Component.Note`, and of a whole component.

Does not own: whether a component is valid (`Component.Validation`).

The sections of a component stand in any order. A module or a component inside it is read from the
bytes that its section announces, or from as many of them as there are.
-/

namespace TwinEngine.Component

open TwinEngine.Binary

namespace Reader

open TwinEngine.Binary.Reader

/-! ## Types of values and functions -/

def primitiveOf? : Nat → Option PrimitiveType
  | 0x7f => some .bool
  | 0x7e => some .s8
  | 0x7d => some .u8
  | 0x7c => some .s16
  | 0x7b => some .u16
  | 0x7a => some .s32
  | 0x79 => some .u32
  | 0x78 => some .s64
  | 0x77 => some .u64
  | 0x76 => some .f32
  | 0x75 => some .f64
  | 0x74 => some .char
  | 0x73 => some .string
  | _ => none

def valueNote : Reader ValueNote := do
  match primitiveOf? (← peek) with
  | some type => do
      let _ ← byte
      return .primitive type
  | none => return .index (← typeIndex)

def optional {α : Type} (reader : Reader α) : Reader (Option α) := do
  if ← flag then return some (← reader) else return none

def named {α : Type} (reader : Reader α) : Reader (String × α) := do
  let title ← name
  return (title, ← reader)

def caseNote : Reader CaseNote := do
  let title ← name
  let type ← optional valueNote
  return ⟨title, type, ← optional index⟩

def partLimit : Nat := 10000

def flagLimit : Nat := 1000

def definedNoteFrom (first : Nat) : Reader DefinedNote :=
  match primitiveOf? first, first with
  | some type, _ => pure (.primitive type)
  | none, 0x72 => do return .record (← vector partLimit (named valueNote)).toList
  | none, 0x71 => do return .variant (← vector partLimit caseNote).toList
  | none, 0x70 => do return .list (← valueNote)
  | none, 0x6f => do return .tuple (← vector partLimit valueNote).toList
  | none, 0x6e => do return .flags (← vector flagLimit name).toList
  | none, 0x6d => do return .enumeration (← vector partLimit name).toList
  | none, 0x6b => do return .option (← valueNote)
  | none, 0x6a => do
      let success ← optional valueNote
      return .result success (← optional valueNote)
  | none, 0x69 => do return .own (← index)
  | none, 0x68 => do return .borrow (← index)
  | none, _ => fail

/-- The results of a function: one without a name, or any number with names. -/
def callableResults : Reader (List (Option String × ValueNote)) := do
  match ← byte with
  | 0 => return [(none, ← valueNote)]
  | 1 => do
      let results ← vector signatureLimit (named valueNote)
      return results.toList.map fun (title, note) => (some title, note)
  | _ => fail

def callableNote : Reader CallableNote := do
  let params ← vector signatureLimit (named valueNote)
  return ⟨params.toList, ← callableResults⟩

/-! ## Names and kinds -/

/-- A name of an import or an export, after a byte that says nothing any more. -/
def externName : Reader String := do
  require ((← byte) ≤ 1)
  name

/-- A kind whose first bytes have been read. The second one is there if the first is zero. -/
def itemKindOf? : Nat → Option Nat → Option ItemKind
  | 0, some 0x11 => some .coreModule
  | 1, _ => some .func
  | 2, _ => some .value
  | 3, _ => some .type
  | 4, _ => some .component
  | 5, _ => some .instantiated
  | _, _ => none

def kindBytes : Reader (Nat × Option Nat) := do
  match ← byte with
  | 0 => return (0, some (← byte))
  | first => return (first, none)

def itemKind : Reader ItemKind := do
  let (first, second) ← kindBytes
  ofOption (itemKindOf? first second)

def externNote : Reader ExternNote := do
  match ← itemKind with
  | .coreModule => return .coreModule (← index)
  | .func => return .func (← index)
  | .value => return .value (← valueNote)
  | .type =>
    if ← flag then return .resource else return .sameType (← index)
  | .component => return .component (← index)
  | .instantiated => return .instantiated (← index)

def outerKindOf? : Nat → Option Nat → Option OuterKind
  | 0, some 0x10 => some .coreType
  | 0, some 0x11 => some .coreModule
  | 3, _ => some .type
  | 4, _ => some .component
  | _, _ => none

def entityKindOf? : Nat → Option EntityKind
  | 0 => some .func
  | 1 => some .table
  | 2 => some .memory
  | 3 => some .global
  | 4 => some .tag
  | _ => none

def aliasNote : Reader AliasNote := do
  let (first, second) ← kindBytes
  match ← byte with
  | 0 => do
      let kind ← ofOption (itemKindOf? first second)
      let place ← index
      return .ofInstance kind place (← name)
  | 1 => do
      let kind ← ofOption (second.bind entityKindOf?)
      let place ← index
      return .ofCoreInstance kind place (← name)
  | 2 => do
      let kind ← ofOption (outerKindOf? first second)
      let count ← index
      return .ofOuter kind count (← index)
  | _ => fail

/-! ## Definitions of types -/

def moduleDeclarationLimit : Nat := 100000

def moduleDeclaration : Reader ModuleDeclaration := do
  match ← byte with
  | 0 => return .imported (← importEntry)
  | 1 => return .types (← typeGroup)
  | 2 => do
      require ((← byte) = 0x10)
      require ((← byte) = 1)
      let count ← index
      return .outerType count (← index)
  | 3 => do
      let title ← name
      return .exported title (← importNote)
  | _ => fail

/-- A core type. The first byte of a module type also starts a type that can be extended, so the
latter has a zero in front. -/
def coreTypeNote : Reader CoreTypeNote := do
  match ← peek with
  | 0x00 => do
      let _ ← byte
      require ((← peek) = 0x50)
      return .types (← typeGroup)
  | 0x50 => do
      let _ ← byte
      return .coreModule (← vector moduleDeclarationLimit moduleDeclaration).toList
  | _ => return .types (← typeGroup)

def declarationLimit : Nat := 1000000

mutual

def typeNote : Nat → Reader TypeNote
  | 0 => fail
  | fuel + 1 => do
      match ← byte with
      | 0x3f => do
          let representation ← valType
          return .resource representation (← optional index)
      | 0x40 => return .func (← callableNote)
      | 0x41 => return .component (← vector declarationLimit (declaration fuel true)).toList
      | 0x42 => return .instantiated (← vector declarationLimit (declaration fuel false)).toList
      | first => return .defined (← definedNoteFrom first)

/-- A part of the type of a component, or of an instance, which imports nothing. -/
def declaration : Nat → Bool → Reader Declaration
  | fuel, imports => do
      match ← byte with
      | 0 => return .coreType (← coreTypeNote)
      | 1 =>
        match fuel with
        | 0 => fail
        | fuel + 1 => return .type (← typeNote fuel)
      | 2 => return .alias (← aliasNote)
      | 3 => do
          require imports
          let title ← externName
          return .imported title (← externNote)
      | 4 => do
          let title ← externName
          return .exported title (← externNote)
      | _ => fail

end

/-! ## Items -/

def argumentLimit : Nat := 100000

def coreArgument : Reader (String × Nat) := do
  let title ← name
  require ((← byte) = 0x12)
  return (title, ← index)

def coreInstanceNote : Reader CoreInstanceNote := do
  match ← byte with
  | 0 => do
      let place ← index
      return .instantiate place (← vector argumentLimit coreArgument).toList
  | 1 => return .exports (← vector argumentLimit exportEntry).toList
  | _ => fail

/-- Something that is passed on under a name that is read by the given reader. -/
def namedItem (title : Reader String) : Reader NamedItem := do
  let title ← title
  let kind ← itemKind
  return ⟨title, kind, ← index⟩

def instanceNote : Reader InstanceNote := do
  match ← byte with
  | 0 => do
      let place ← index
      return .instantiate place (← vector argumentLimit (namedItem name)).toList
  | 1 => return .exports (← vector argumentLimit (namedItem externName)).toList
  | _ => fail

/-- Most options of a function that crosses between a component and its core code. -/
def optionLimit : Nat := 10

def canonicalOption : Reader CanonicalOption := do
  match ← byte with
  | 0 | 1 | 2 => return .encoding
  | 3 => return .memory (← index)
  | 4 => return .allocator (← index)
  | 5 => return .afterReturn (← index)
  | _ => fail

def canonicalNote : Reader CanonicalNote := do
  match ← byte with
  | 0 => do
      require ((← byte) = 0)
      let function ← index
      let options ← vector optionLimit canonicalOption
      return .lift function options.toList (← index)
  | 1 => do
      require ((← byte) = 0)
      let function ← index
      return .lower function (← vector optionLimit canonicalOption).toList
  | 2 => return .resourceNew (← index)
  | 3 => return .resourceDrop (← index)
  | 4 => return .resourceRepresentation (← index)
  | _ => fail

def exportItem : Reader Item := do
  let item ← namedItem externName
  return .exported item (← optional externNote)

/-- Most entries of a section, which is all that can be written. -/
def sectionLimit : Nat := 2 ^ 32

/-- The items of a section without modules or components, by its identifier. -/
def sectionItems (fuel : Nat) : Nat → Reader (List Item)
  | 2 => do return (← vector sectionLimit coreInstanceNote).toList.map .coreInstance
  | 3 => do return (← vector sectionLimit coreTypeNote).toList.map .coreType
  | 5 => do return (← vector sectionLimit instanceNote).toList.map .instantiated
  | 6 => do return (← vector sectionLimit aliasNote).toList.map .alias
  | 7 => do return (← vector sectionLimit (typeNote fuel)).toList.map .type
  | 8 => do return (← vector sectionLimit canonicalNote).toList.map .canonical
  | 10 => do
      let imports ← vector sectionLimit (do
        let title ← externName
        return (title, ← externNote))
      return imports.toList.map fun (title, note) => .imported title note
  | 11 => do return (← vector sectionLimit exportItem).toList
  | _ => fail

/-- The item that a section stands for which the format leaves open: names, or nothing. -/
def customItems (content : List UInt8) : Option (List Item) :=
  match name content with
  | none => none
  | some (title, rest) => some (if title = "name" then [.names rest] else [])

def componentVersion : List UInt8 := [0x0d, 0x00, 0x01, 0x00]

def afterHeader? (bytes : List UInt8) : Option (List UInt8) :=
  if bytes.take 8 = Sections.magic ++ componentVersion then some (bytes.drop 8) else none

/-- Read items to the end, at most one section for each unit of fuel. `missing` counts the bytes
that were announced and are not there; nothing was announced of an outermost component. -/
def itemsFrom : Nat → Option Nat → Array Item → List UInt8 → Option (List Item)
  | _, _, done, [] => some done.toList
  | 0, _, _, _ :: _ => none
  | fuel + 1, missing, done, bytes =>
    match (do return (← byte, ← index) : Reader (Nat × Nat)) bytes with
    | none => none
    | some ((id, size), rest) =>
      if id = 1 ∨ id = 4 then
        let content := rest.take size
        let announced := missing.all fun missing => size ≤ rest.length + missing
        let item := if id = 1 then (Sections.ofBytes? content).map Item.coreModule
          else
            match afterHeader? content with
            | none => none
            | some inside =>
              (itemsFrom fuel (some (size - content.length)) #[] inside).map Item.component
        match item with
        | some item =>
          if announced then itemsFrom fuel missing (done.push item) (rest.drop size) else none
        | none => none
      else
        match take size rest with
        | none => none
        | some (content, rest) =>
          let items := if id = 0 then customItems content
            else (sectionItems content.length id).whole content
          match items with
          | some items => itemsFrom fuel missing (done ++ items.toArray) rest
          | none => none

end Reader

def ofBytes? (bytes : List UInt8) : Option (List Item) :=
  (Reader.afterHeader? bytes).bind fun content =>
    Reader.itemsFrom content.length none #[] content

end TwinEngine.Component
