import TwinEngine.Binary.Operator
import TwinEngine.Binary.Names

/-!
Contract: the sections of a binary module.

Owns: what each section holds, the order of sections, and the reader of a whole module.

Does not own: validation (`Validation.Module`), or the module that comes of it
(`Binary.Conversion`).
-/

namespace TwinEngine.Binary

inductive EntityKind where
  | func
  | table
  | memory
  | global
  | tag
deriving DecidableEq, Repr

inductive ImportNote where
  | func (typeIndex : Nat)
  | table (note : TableNote)
  | memory (note : MemoryNote)
  | global (note : GlobalNote)
  | tag (typeIndex : Nat)
deriving DecidableEq, Repr

structure ImportEntry where
  moduleName : String
  name : String
  note : ImportNote
deriving DecidableEq, Repr

structure TableEntry where
  note : TableNote
  init : Option (List Operator)
deriving DecidableEq, Repr

structure GlobalEntry where
  note : GlobalNote
  init : List Operator
deriving DecidableEq, Repr

structure ExportEntry where
  name : String
  kind : EntityKind
  index : Nat
deriving DecidableEq, Repr

inductive ElementItems where
  | functions (indices : List Nat)
  | expressions (type : RefType) (items : List (List Operator))
deriving DecidableEq, Repr

inductive ElementPlace where
  | passive
  | active (table : Nat) (offset : List Operator)
  | declared
deriving DecidableEq, Repr

structure ElementEntry where
  place : ElementPlace
  items : ElementItems
deriving DecidableEq, Repr

/-- A data segment. An active one names its memory and its offset. -/
structure DataEntry where
  place : Option (Nat × List Operator)
  bytes : List UInt8
deriving DecidableEq, Repr

/-- A function body: its locals in runs of one type, and its operators. -/
structure CodeEntry where
  locals : List (Nat × ValType)
  operators : List Operator
deriving DecidableEq, Repr

structure Sections where
  types : List (List SubType) := []
  imports : List ImportEntry := []
  functions : List Nat := []
  tables : List TableEntry := []
  memories : List MemoryNote := []
  tags : List Nat := []
  globals : List GlobalEntry := []
  exports : List ExportEntry := []
  start : Option Nat := none
  elements : List ElementEntry := []
  dataCount : Option Nat := none
  code : List CodeEntry := []
  data : List DataEntry := []
  names : List (Nat × String) := []
deriving DecidableEq, Repr

namespace Reader

/-- Most imports, exports, and segments of one sort. -/
def entryLimit : Nat := 100000

/-- Most functions, globals, and tags. -/
def definitionLimit : Nat := 1000000

def bodyLimit : Nat := 7654321

/-- A type index after the byte that marks a tag as an exception. -/
def tagNote : Reader Nat := do
  require ((← byte) = 0)
  index

def importNote : Reader ImportNote := do
  match ← byte with
  | 0 => return .func (← index)
  | 1 => return .table (← tableNote)
  | 2 => return .memory (← memoryNote)
  | 3 => return .global (← globalNote)
  | 4 => return .tag (← tagNote)
  | _ => fail

def importEntry : Reader ImportEntry := do
  let moduleName ← name
  let itemName ← name
  return ⟨moduleName, itemName, ← importNote⟩

/-- A table, after `0x40 0x00` with the expression for its entries. -/
def tableEntry : Reader TableEntry := do
  match ← peek with
  | 0x40 => do
      let _ ← byte
      require ((← byte) = 0)
      let note ← tableNote
      return ⟨note, some (← expression)⟩
  | _ => return ⟨← tableNote, none⟩

def globalEntry : Reader GlobalEntry := do
  let note ← globalNote
  return ⟨note, ← expression⟩

def entityKind : Reader EntityKind := do
  match ← byte with
  | 0 => return .func
  | 1 => return .table
  | 2 => return .memory
  | 3 => return .global
  | 4 => return .tag
  | _ => fail

def exportEntry : Reader ExportEntry := do
  let itemName ← name
  let kind ← entityKind
  return ⟨itemName, kind, ← index⟩

def tableSizeLimit : Nat := 10000000

/-- An element segment. Bit 0 of its flags marks it as not active, bit 1 as declared or as naming
its table, bit 2 as written in expressions. -/
def elementEntry : Reader ElementEntry := do
  let flags ← index
  require (flags < 8)
  let named := flags / 2 % 2 = 1
  let place ←
    if flags % 2 = 1 then
      pure (if named then ElementPlace.declared else ElementPlace.passive)
    else do
      let table ← if named then index else pure 0
      pure (ElementPlace.active table (← expression))
  let typed := flags % 4 ≠ 0
  if flags < 4 then
    if typed then require ((← byte) = 0)
    return ⟨place, .functions (← vector tableSizeLimit index).toList⟩
  else
    let type ← if typed then refType else pure (RefType.nullableOf .func)
    return ⟨place, .expressions type (← vector tableSizeLimit expression).toList⟩

def dataEntry : Reader DataEntry := do
  let place ← match ← index with
    | 0 => do pure (some (0, ← expression))
    | 1 => pure none
    | 2 => do
        let memory ← index
        pure (some (memory, ← expression))
    | _ => fail
  return ⟨place, ← take (← index)⟩

def localRun : Reader (Nat × ValType) := do
  let count ← index
  return (count, ← valType)

def codeInside : Reader CodeEntry := do
  let locals ← times localRun (← index)
  return ⟨locals.toList, (← all operator).toList⟩

def codeEntry : Reader CodeEntry := do
  let size ← index
  require (size ≤ bodyLimit)
  let content ← take size
  ofOption (codeInside.whole content)

/-- The inside of a section that the format leaves open: a name, then anything. -/
def customSection (sections : Sections) (content : List UInt8) : Option Sections :=
  match name content with
  | none => none
  | some (title, rest) =>
    if title = "name" then some { sections with names := addNames sections.names rest }
    else some sections

/-- The place of a section among the others, by its identifier. -/
def sectionRank? : Nat → Option Nat
  | 1 => some 1
  | 2 => some 2
  | 3 => some 3
  | 4 => some 4
  | 5 => some 5
  | 13 => some 6
  | 6 => some 7
  | 7 => some 8
  | 8 => some 9
  | 9 => some 10
  | 12 => some 11
  | 10 => some 12
  | 11 => some 13
  | _ => none

def sectionContent (sections : Sections) : Nat → Reader Sections
  | 1 => do return { sections with types := (← vector typeLimit typeGroup).toList }
  | 2 => do return { sections with imports := (← vector entryLimit importEntry).toList }
  | 3 => do return { sections with functions := (← vector definitionLimit index).toList }
  | 4 => do return { sections with tables := (← vector entryLimit tableEntry).toList }
  | 5 => do return { sections with memories := (← vector entryLimit memoryNote).toList }
  | 6 => do return { sections with globals := (← vector definitionLimit globalEntry).toList }
  | 7 => do return { sections with exports := (← vector entryLimit exportEntry).toList }
  | 8 => do return { sections with start := some (← index) }
  | 9 => do return { sections with elements := (← vector entryLimit elementEntry).toList }
  | 10 => do return { sections with code := (← vector definitionLimit codeEntry).toList }
  | 11 => do return { sections with data := (← vector entryLimit dataEntry).toList }
  | 12 => do return { sections with dataCount := some (← index) }
  | 13 => do return { sections with tags := (← vector definitionLimit tagNote).toList }
  | _ => fail

def sectionFrame : Reader (Nat × List UInt8) := do
  let id ← byte
  return (id, ← take (← index))

/-- Read sections to the end, at most one for each unit of fuel. A section that the format names
stands after all those of lower rank, and at most once. -/
def sectionsFrom : Nat → Nat → Sections → List UInt8 → Option Sections
  | _, _, sections, [] => some sections
  | 0, _, _, _ :: _ => none
  | fuel + 1, rank, sections, bytes =>
    match sectionFrame bytes with
    | none => none
    | some ((0, content), rest) =>
      match customSection sections content with
      | none => none
      | some sections => sectionsFrom fuel rank sections rest
    | some ((id, content), rest) =>
      match sectionRank? id, (sectionContent sections id).whole content with
      | some next, some sections =>
        if rank < next then sectionsFrom fuel next sections rest else none
      | _, _ => none

end Reader

namespace Sections

def magic : List UInt8 := [0x00, 0x61, 0x73, 0x6d]

def moduleVersion : List UInt8 := [0x01, 0x00, 0x00, 0x00]

def ofBytes? (bytes : List UInt8) : Option Sections :=
  let content := bytes.drop 8
  if bytes.take 8 = magic ++ moduleVersion then Reader.sectionsFrom content.length 0 {} content
  else none

end Sections

end TwinEngine.Binary
