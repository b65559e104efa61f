import TwinEngine.Proofs.Engine.Operators

/-!
Contract: operations of an instance on whole ranges.

Owns: that copies, fills and growth of memories and tables do all that they are asked for, or
nothing.

A copy reads all that it moves from the state before it, whether or not its ranges overlap.
-/

namespace TwinEngine.Instance

/-- An effect traps and leaves the instance as it is, unless its ranges fit. -/
def AllOrNothing (live : Instance) (effect : Effect Instance Unit) (trap : Trap) (fits : Prop)
    (done : Instance → Prop) : Prop :=
  (fits ∧ ∃ after, effect live = (.ok (), after) ∧ done after) ∨
    (¬ fits ∧ effect live = (.error trap, live))

/-- Positions of the memory are set, and nothing else. -/
def SetsMemory (live : Instance) (memory : Memory) (start count : Nat) (item : Nat → Option UInt8)
    (after : Instance) : Prop :=
  ∃ changed, memory.Written start count item changed ∧ after = { live with memory := some changed }

/-- Positions of a table are set, and nothing else. -/
def SetsTable (live : Instance) (index : Nat) (table : Table) (start count : Nat)
    (item : Nat → Option UInt64) (after : Instance) : Prop :=
  ∃ changed, table.Written start count item changed ∧
    after = { live with tables := live.tables.setIfInBounds index changed }

/-- Entries are added to a table, and nothing else. -/
def extended (live : Instance) (index : Nat) (table : Table) (count : Nat) (payload : UInt64) :
    Instance :=
  let entries := table.entries ++ Array.replicate count payload
  { live with tables := live.tables.setIfInBounds index { table with entries } }

section

variable {live : Instance} {memory : Memory} {table : Table} {index start count : Nat} {fits : Prop}

theorem changeMemory_allOrNothing (here : live.memory = some memory)
    (checked : Checked trap fits (change memory) (memory.Written start count item)) :
    live.AllOrNothing (changeMemory change) trap fits
      (live.SetsMemory memory start count item) := by
  obtain ⟨_, _⟩ := live
  cases here
  unfold AllOrNothing changeMemory
  rcases checked with ⟨fit, changed, done, written⟩ | ⟨beyond, refused⟩
  · simp only [done]
    exact .inl ⟨fit, _, rfl, changed, written, rfl⟩
  · simp only [refused]
    exact .inr ⟨beyond, trivial⟩

theorem changeTable_allOrNothing (here : live.tables[index]? = some table)
    (checked : Checked trap fits (change table) (table.Written start count item)) :
    live.AllOrNothing (changeTable index change) trap fits
      (live.SetsTable index table start count item) := by
  unfold AllOrNothing changeTable
  rw [table_eq_ok.mpr here]
  rcases checked with ⟨fit, changed, done, written⟩ | ⟨beyond, refused⟩
  · simp only [bind, Except.bind, done]
    exact .inl ⟨fit, _, rfl, changed, written, rfl⟩
  · simp only [bind, Except.bind, refused]
    exact .inr ⟨beyond, trivial⟩

theorem copyTable_allOrNothing {sourceTable target source length : Nat}
    (here : live.tables[index]? = some table) (there : live.tables[sourceTable]? = some origin) :
    live.AllOrNothing (copyTable index sourceTable target source length) .tableOutOfBounds
      (source + length ≤ origin.size ∧ target + length ≤ table.size)
      (live.SetsTable index table target length fun place => origin.entries[source + place]?) := by
  unfold AllOrNothing copyTable
  split
  · rename_i same
    subst same
    cases here.symm.trans there
    exact changeTable_allOrNothing here (table.checked_copyWithin target source length)
  · rw [table_eq_ok.mpr there]
    exact changeTable_allOrNothing here (table.checked_copyFrom target _ source length)

theorem initMemory_allOrNothing {segment : Nat} {data : ByteArray} (target source length : Nat)
    (here : live.memory = some memory) (held : live.data[segment]? = some data) :
    live.AllOrNothing (initMemory segment target source length) .memoryOutOfBounds
      (source + length ≤ data.size ∧ target + length ≤ memory.size)
      (live.SetsMemory memory target length fun place => data.data[source + place]?) := by
  unfold AllOrNothing initMemory
  rw [held]
  exact changeMemory_allOrNothing here (memory.checked_init target data source length)

theorem initTable_allOrNothing {segment : Nat} (target source length : Nat)
    (here : live.tables[index]? = some table) (held : live.elements[segment]? = some items) :
    live.AllOrNothing (initTable segment index target source length) .tableOutOfBounds
      (source + length ≤ items.size ∧ target + length ≤ table.size)
      (live.SetsTable index table target length fun place => items[source + place]?) := by
  unfold AllOrNothing initTable
  rw [held]
  exact changeTable_allOrNothing here (table.checked_copyFrom target items source length)

theorem growTable_eq (here : live.tables[index]? = some table) (delta : Nat) (payload : UInt64) :
    growTable index delta payload live = if table.size + delta ≤ table.limit then
      (.ok (UInt32.ofNat table.size), live.extended index table delta payload)
      else (.ok growRefused, live) := by
  unfold growTable Table.grow
  rw [table_eq_ok.mpr here]
  dsimp only
  split
  · rw [Table.extendBy_eq]
    rfl
  · rw [setIfInBounds_self here]
    rfl

end

/-- Operations on ranges move what was there before them, and touch nothing else. -/
theorem bulk_allOrNothing (live : Instance) (target source length : Nat) (payload : UInt64) :
    (∀ memory, live.memory = some memory →
      live.AllOrNothing (changeMemory (Memory.copy · target source length)) .memoryOutOfBounds
        (source + length ≤ memory.size ∧ target + length ≤ memory.size)
        (live.SetsMemory memory target length fun place => memory.bytes.data[source + place]?) ∧
      ∀ segment data, live.data[segment]? = some data →
        live.AllOrNothing (initMemory segment target source length) .memoryOutOfBounds
          (source + length ≤ data.size ∧ target + length ≤ memory.size)
          (live.SetsMemory memory target length fun place => data.data[source + place]?)) ∧
    ∀ index table, live.tables[index]? = some table →
      (∀ origin entries, live.tables[origin]? = some entries →
        live.AllOrNothing (copyTable index origin target source length) .tableOutOfBounds
          (source + length ≤ entries.size ∧ target + length ≤ table.size)
          (live.SetsTable index table target length fun place =>
            entries.entries[source + place]?)) ∧
      (∀ segment items, live.elements[segment]? = some items →
        live.AllOrNothing (initTable segment index target source length) .tableOutOfBounds
          (source + length ≤ items.size ∧ target + length ≤ table.size)
          (live.SetsTable index table target length fun place => items[source + place]?)) ∧
      live.AllOrNothing (changeTable index (Table.fill · target payload length)) .tableOutOfBounds
        (target + length ≤ table.size)
        (live.SetsTable index table target length fun _ => some payload) ∧
      live.AllOrNothing (changeTable index (Table.set · target payload)) .tableOutOfBounds
        (target < table.size) (live.SetsTable index table target 1 fun _ => some payload) ∧
      growTable index length payload live = if table.size + length ≤ table.limit then
        (.ok (UInt32.ofNat table.size), live.extended index table length payload)
        else (.ok growRefused, live) := by
  refine ⟨fun memory here => ⟨?_, fun segment data held => ?_⟩, fun index table here =>
    ⟨fun _ _ there => copyTable_allOrNothing here there,
      fun _ _ held => initTable_allOrNothing target source length here held,
      changeTable_allOrNothing here (table.checked_fill target payload length),
      changeTable_allOrNothing here (table.checked_set target payload),
      growTable_eq here length payload⟩⟩
  · exact changeMemory_allOrNothing here (memory.checked_copy target source length)
  · exact initMemory_allOrNothing target source length here held

/-- Two tables, of which the second has a passive segment. -/
def twoTables : Instance :=
  { tables := #[.new .funcRef 4 none 7, .new .funcRef 2 none 8], elements := #[#[1, 2, 3]] }

theorem bulk_allOrNothing_twoTables :
    ∃ after, copyTable 0 1 3 1 1 twoTables = (.ok (), after) ∧
      twoTables.SetsTable 0 (.new .funcRef 4 none 7) 3 1 (fun place => #[8, 8][1 + place]?) after ∧
      initTable 0 0 3 1 2 twoTables = (.error .tableOutOfBounds, twoTables) := by
  have moved := (bulk_allOrNothing twoTables 3 1 1 0).2 0 _ rfl
  have beyond := ((bulk_allOrNothing twoTables 3 1 2 0).2 0 _ rfl).2.1 0 _ rfl
  rcases moved.1 1 _ rfl with ⟨_, after, done, sets⟩ | ⟨outside, _⟩
  · rcases beyond with ⟨fits, _⟩ | ⟨_, refused⟩
    · exact absurd fits (by decide)
    · exact ⟨after, done, sets, refused⟩
  · exact absurd (by decide) outside

end TwinEngine.Instance
