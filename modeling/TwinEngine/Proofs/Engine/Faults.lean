import TwinEngine.Proofs.Engine.Operators

/-!
Contract: the traps of operators are their own.

Owns: that a plain operator never ends in a trap that the surroundings of a call raise, such as an
unknown instance or a branch out of range.
-/

namespace TwinEngine

/-- An outcome is not a trap that the surroundings of a call raise. -/
def Faultless {α : Type} (outcome : Except Trap α) : Prop :=
  ∀ trap, outcome = .error trap → trap.kind ≠ .host

namespace Faultless

variable {α β : Type}

theorem ok (result : α) : Faultless (.ok result : Except Trap α) := by
  rintro _ ⟨⟩

theorem error (own : trap.kind ≠ .host) :
    Faultless (.error trap : Except Trap α) := by
  rintro _ ⟨⟩
  exact own

theorem guarded {condition : Prop} [Decidable condition] (result : α) (own : trap.kind ≠ .host) :
    Faultless (if condition then .ok result else .error trap) := by
  split
  · exact ok result
  · exact error own

theorem bind (before : Faultless first) (after : ∀ result, Faultless (next result)) :
    Faultless (first >>= next) := by
  cases first with
  | ok result => exact after result
  | error trap => exact error (before trap rfl)

theorem map (faultless : Faultless outcome) (change : α → β) : Faultless (outcome.map change) := by
  cases outcome with
  | ok result => exact ok (change result)
  | error trap => exact error (faultless trap rfl)

end Faultless

namespace Instance

variable {α : Type} (live : Instance)

theorem faultless_table (index : Nat) : Faultless (live.table index) := by
  unfold table
  split
  · exact .ok _
  · exact .error (by decide)

theorem faultless_readMemory {read : Memory → Except Trap α}
    (faultless : ∀ memory, Faultless (read memory)) : Faultless (live.readMemory read) := by
  unfold readMemory
  split
  · exact .error (by decide)
  · exact faultless _

theorem faultless_changeMemory (faultless : ∀ memory, Faultless (change memory)) :
    Faultless (changeMemory change live).1 := by
  unfold changeMemory
  split
  · rename_i memory _ _ _ _
    split
    · exact .ok _
    · exact .error (faultless memory _ (by assumption))
  · exact .error (by decide)

theorem faultless_growMemory (delta : Nat) : Faultless (growMemory delta live).1 := by
  unfold growMemory
  split
  · exact .ok _
  · exact .error (by decide)

theorem faultless_initMemory (segment target source length : Nat) :
    Faultless (initMemory segment target source length live).1 := by
  unfold initMemory
  split
  · exact faultless_changeMemory live fun _ => .guarded _ (by decide)
  · exact .error (by decide)

theorem faultless_changeTable (index : Nat) (faultless : ∀ table, Faultless (change table)) :
    Faultless (changeTable index change live).1 := by
  have both := (live.faultless_table index).bind faultless
  unfold changeTable
  split
  · exact .ok _
  · exact .error (both _ (by assumption))

theorem faultless_growTable (index delta : Nat) (payload : UInt64) :
    Faultless (growTable index delta payload live).1 := by
  unfold growTable
  split
  · exact .ok _
  · exact .error (live.faultless_table index _ (by assumption))

theorem faultless_copyTable (targetTable sourceTable target source length : Nat) :
    Faultless (copyTable targetTable sourceTable target source length live).1 := by
  unfold copyTable
  split
  · exact faultless_changeTable live _ fun _ => .guarded _ (by decide)
  · split
    · exact faultless_changeTable live _ fun _ => .guarded _ (by decide)
    · exact .error (live.faultless_table sourceTable _ (by assumption))

theorem faultless_initTable (segment index target source length : Nat) :
    Faultless (initTable segment index target source length live).1 := by
  unfold initTable
  split
  · exact faultless_changeTable live _ fun _ => .guarded _ (by decide)
  · exact .error (by decide)

end Instance

theorem Numeric.faultless_apply (left right : BitVec width) (operation : Numeric.IntBinary) :
    Faultless (operation.apply left right) := by
  unfold Numeric.IntBinary.apply
  split
  case h_4 =>
    split
    · exact .error (by decide)
    · split
      · exact .error (by decide)
      · exact .ok _
  all_goals first
    | exact .ok _
    | (split; exacts [.error (by decide), .ok _])

theorem Numeric.faultless_truncateUnless (target : Numeric.IntWidth) (format : FloatFormat)
    (sign : Sign) (below above : Numeric.FloatComparison × Int) (bits : Nat) :
    Faultless (Numeric.truncateUnless target format sign below above bits) := by
  unfold Numeric.truncateUnless
  split
  · exact .error (by decide)
  · dsimp only
    split
    · exact .error (by decide)
    · exact .ok _

theorem Numeric.faultless_truncate (target : Numeric.IntWidth) (source : Numeric.FloatWidth)
    (sign : Sign) (bits : Nat) : Faultless (Numeric.truncate target source sign bits) := by
  cases target <;> cases source <;> cases sign <;> exact faultless_truncateUnless _ _ _ _ _ _

theorem Numeric.faultless_eval (operator : Numeric.Operator) (left right : UInt64) :
    Faultless (operator.eval left right) := by
  cases operator with
  | binaryInt => exact (faultless_apply _ _ _).map _
  | truncate _ _ sign => exact (faultless_truncate _ _ _ _).map _
  | extend sign => cases sign <;> exact .ok _
  | _ => exact .ok _

/-- Plain operators raise none but their own traps. -/
theorem Table.faultless_get (table : Table) (index : Nat) : Faultless (table.get index) := by
  unfold Table.get
  split
  · exact .ok _
  · exact .error (by decide)

theorem Operator.faultless_perform (owner : Nat) (operator : Operator) (operands : List UInt64)
    (live : Instance) : Faultless (operator.perform owner operands live).1 := by
  cases operator <;> unfold Operator.perform
  case tableGet table =>
    exact .map (.bind (live.faultless_table table) fun entries => entries.faultless_get _) _
  case tableSize table => exact .map (.bind (live.faultless_table table) fun _ => .ok _) _
  case tableSet | tableFill =>
    exact .map (live.faultless_changeTable _ fun _ => .guarded _ (by decide)) _
  case tableGrow => exact .map (live.faultless_growTable _ _ _) _
  case tableCopy => exact .map (live.faultless_copyTable _ _ _ _ _) _
  case tableInit => exact .map (live.faultless_initTable _ _ _ _ _) _
  case load => exact .map (live.faultless_readMemory fun _ => .guarded _ (by decide)) _
  case store | memoryFill | memoryCopy =>
    exact .map (live.faultless_changeMemory fun _ => .guarded _ (by decide)) _
  case memorySize => exact .map (live.faultless_readMemory fun _ => .ok _) _
  case memoryGrow => exact .map (live.faultless_growMemory _) _
  case memoryInit => exact .map (live.faultless_initMemory _ _ _ _) _
  case numeric operator => exact .map (Numeric.faultless_eval _ _ _) _
  all_goals exact .ok _

end TwinEngine
