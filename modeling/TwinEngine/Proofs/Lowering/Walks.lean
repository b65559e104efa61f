import TwinEngine.Proofs.Lowering.Assembly
import TwinEngine.Proofs.Outcome

/-!
Contract: what the stages of lowering keep.

Owns: relations between two units under construction that every stage of lowering keeps. A property
of one unit is a relation of the unit with itself.

Nothing here depends on the code being typed.
-/

namespace TwinEngine.Lowering

open Machine hiding Instruction

/-- The failure of a unit that is larger than a limit. -/
def TooLarge : Error → Prop
  | .codeTooLarge .. => True
  | _ => False

/-- One stage of lowering in two units: they stay related, or fail alike and not for their size. -/
def Both (related : Emitter → Emitter → Prop) : Except Error Emitter → Except Error Emitter → Prop
  | .ok left, .ok right => related left right
  | .error fault, .error other => fault = other ∧ ¬ TooLarge fault
  | _, _ => False

theorem Both.bind (first : Both related left right)
    (then_ : ∀ {left right}, related left right → Both related (next left) (next' right)) :
    Both related (left >>= next) (right >>= next') := by
  cases left with
  | error =>
    cases right with
    | error other => exact first
    | ok after => cases first
  | ok =>
    cases right with
    | error other => cases first
    | ok after => exact then_ first

def IsCall : Action → Prop
  | .call .unit .. | .callIndirect .. => True
  | _ => False

/-- A relation that lowering keeps where it jumps to used names only. -/
structure Kept (used : Nat → Prop) (related : Emitter → Emitter → Prop) : Prop where
  frame : ∀ {left right : Emitter}, related left right → SameFrame left right
  pool : ∀ {left right : Emitter}, related left right → ∀ type,
    related { left with signatures := left.signatures.push type }
      { right with signatures := right.signatures.push type }
  scratch : ∀ {left right : Emitter}, related left right → left.scratch = none →
    ∀ slot, slot.toNat = left.localSlots →
    related { left with localSlots := left.localSlots + 1, scratch := some slot }
      { right with localSlots := right.localSlots + 1, scratch := some slot }
  emit : ∀ {left right : Emitter} {action : Action}, related left right → ¬ IsCall action →
    related (left.emit action) (right.emit action)
  polled : ∀ {left right : Emitter} {action : Action}, related left right →
    related ((left.emit .checkInterrupt).emit action) ((right.emit .checkInterrupt).emit action)
  jump : ∀ {left right : Emitter} {condition : Condition} {name : Nat}, related left right →
    used name → related (jump left condition name) (jump right condition name)
  switch : ∀ {left right : Emitter} {names : List Nat}, related left right →
    (∀ name ∈ names, used name) → names.length ≤ 65535 →
    related (switched left names) (switched right names)
  label : ∀ {left right : Emitter} {name : Nat}, related left right →
    related ((left.labelFor name).2.define (left.labelFor name).1)
      ((right.labelFor name).2.define (right.labelFor name).1)

namespace Kept

variable {used : Nat → Prop} {related : Emitter → Emitter → Prop} (kept : Kept used related)
  (context : Context) {left right : Emitter} (before : related left right)

include kept before

theorem signature (type : FunctionType) (then_ : ∀ {signature left right}, related left right →
      Both related (next (signature, left)) (next' (signature, right))) :
    Both related (left.signature type >>= next) (right.signature type >>= next') := by
  have pooled := kept.pool before type
  unfold Emitter.signature
  rw [(kept.frame before).signatures] at pooled ⊢
  split
  · exact then_ before
  · split
    · exact ⟨rfl, id⟩
    · exact then_ pooled

theorem scratchSlot (then_ : ∀ {slot left right}, related left right →
      Both related (next (slot, left)) (next' (slot, right))) :
    Both related (left.scratchSlot >>= next) (right.scratchSlot >>= next') := by
  have grown := kept.scratch before
  have frame := kept.frame before
  unfold Emitter.scratchSlot
  rw [frame.scratch, frame.localSlots, frame.function] at *
  split
  · exact then_ before
  · rename_i absent
    split
    · exact ⟨rfl, id⟩
    · refine then_ (grown absent _ ?_)
      rw [UInt16.toNat_ofNat']
      omega

theorem unboxResults (type : FunctionType) (signature : UInt16) :
    related (unboxResults left type signature) (unboxResults right type signature) := by
  unfold Lowering.unboxResults
  split
  · exact kept.emit before id
  · exact before

theorem defaultLocals (locals : List (ValueKind × UInt16)) :
    related (defaultLocals locals left) (defaultLocals locals right) := by
  induction locals generalizing left right with
  | nil => exact before
  | cons _ _ ih =>
    refine ih ?_
    dsimp only
    split
    · exact kept.emit (kept.emit before id) id
    · exact before

theorem localGet (index : Nat) :
    Both related (localGet context left index) (localGet context right index) := by
  unfold Lowering.localGet Context.local
  split
  · exact kept.emit before id
  · exact ⟨rfl, id⟩

theorem localSet (index : Nat) :
    Both related (localSet context left index) (localSet context right index) := by
  unfold Lowering.localSet Context.local
  split
  · exact kept.emit before id
  · exact ⟨rfl, id⟩

theorem storeParams (count : Nat) :
    Both related (storeParams context count left) (storeParams context count right) := by
  induction count generalizing left right with
  | zero => exact before
  | succ count ih => exact (kept.localSet context before count).bind fun stored => ih stored

theorem prologue : Both related (prologue context left) (prologue context right) := by
  unfold Lowering.prologue
  split
  · exact kept.defaultLocals before _
  · exact kept.signature before context.signature fun pooled =>
      (kept.storeParams context (kept.emit (kept.emit pooled id) id) _).bind
        fun stored => kept.defaultLocals stored _

theorem dropKeep (drop keep : List ValueKind) :
    Both related (dropKeep left drop keep) (dropKeep right drop keep) := by
  unfold Lowering.dropKeep
  dsimp only
  split
  · exact before
  · split
    · exact ⟨rfl, id⟩
    · exact kept.emit before id

theorem leave : Both related (leave context left) (leave context right) := by
  have few : ¬ returnSlots context.signature > 65535 := by
    have := returnSlots_le context.signature
    omega
  unfold Lowering.leave
  dsimp only
  split
  · exact kept.signature before context.signature fun pooled => kept.emit (kept.emit pooled id) id
  · exact kept.emit before id

theorem call (function : Nat) :
    Both related (call context left function) (call context right function) := by
  unfold Lowering.call
  split
  · exact ⟨rfl, id⟩
  · refine kept.signature before _ fun pooled => ?_
    dsimp only
    split
    · exact kept.unboxResults (kept.polled pooled) _ _
    · exact kept.unboxResults (kept.polled (kept.emit pooled id)) _ _

theorem callIndirect (typeIndex table : Nat) :
    Both related (callIndirect context left typeIndex table)
      (callIndirect context right typeIndex table) := by
  unfold Lowering.callIndirect
  split
  · exact ⟨rfl, id⟩
  · refine kept.signature before _ fun pooled => ?_
    dsimp only
    split
    · exact kept.unboxResults (kept.polled pooled) _ _
    · exact kept.scratchSlot pooled fun held => kept.unboxResults
        (kept.polled (kept.emit (kept.emit (kept.emit held id) id) id)) _ _

theorem operator (operator : Operator) :
    Both related (Lowering.operator context left operator)
      (Lowering.operator context right operator) := by
  cases operator with
  | localGet index => exact kept.localGet context before index
  | localSet index => exact kept.localSet context before index
  | globalGet index | globalSet index =>
    simp only [Lowering.operator, Context.globalKind]
    split
    · exact kept.emit before id
    · exact ⟨rfl, id⟩
  | load kind offset =>
    simp only [Lowering.operator, Lowering.load]
    split
    · exact kept.emit before id
    · exact kept.emit (kept.emit before id) id
  | store kind offset =>
    simp only [Lowering.operator, Lowering.store]
    split
    · exact kept.emit before id
    · exact kept.emit (kept.emit (kept.emit before id) id) id
  | constant value => cases value <;> exact kept.emit before id
  | _ => first | exact kept.emit before id | exact ⟨rfl, id⟩

theorem switchOver (all : ∀ name ∈ names, used name) :
    Both related (Lowering.switch left names) (Lowering.switch right names) := by
  rw [switch_eq, switch_eq]
  split
  · exact ⟨rfl, id⟩
  · exact kept.switch before all (by omega)

theorem instruction {instr : Normalized} (all : ∀ name ∈ instr.targets, used name) :
    Both related (Lowering.instruction context left instr)
      (Lowering.instruction context right instr) := by
  cases instr with
  | label name => exact kept.label before
  | goto target | ifZero target | ifNonzero target =>
    exact kept.jump before (all target List.mem_cons_self)
  | switch targets => exact kept.switchOver before all
  | dropKeep drop keep => exact kept.dropKeep before drop keep
  | leave => exact kept.leave context before
  | trap | drop kind | select kind => exact kept.emit before id
  | localTee index kind => exact kept.localSet context (kept.emit before id) index
  | call function => exact kept.call context before function
  | callIndirect typeIndex table => exact kept.callIndirect context before typeIndex table
  | operator operator => exact kept.operator context before operator

theorem instructions (all : ∀ instr ∈ code, ∀ name ∈ instr.targets, used name) :
    Both related (Lowering.instructions context code left)
      (Lowering.instructions context code right) := by
  induction code generalizing left right with
  | nil => exact before
  | cons first _ ih =>
    exact (kept.instruction context before (all first List.mem_cons_self)).bind
      fun after => ih after fun other member => all other (List.mem_cons_of_mem _ member)

end Kept

/-- Emission comes down to its three stages. -/
theorem emitted_eq_ok {function : Nat}
    (made : emitted source function code = .ok (context, emitter)) :
    Context.of source function = .ok context ∧
      ∃ first, prologue context (.new function context.frameSlots) = .ok first ∧
        instructions context code first = .ok emitter := by
  obtain ⟨_, found, made⟩ := bind_eq_ok.mp made
  obtain ⟨first, started, made⟩ := bind_eq_ok.mp made
  obtain ⟨_, ended, made⟩ := bind_eq_ok.mp made
  cases made
  exact ⟨found, first, started, ended⟩

theorem Kept.of_emitted (kept : Kept (fun _ => True) related) {function : Nat}
    (made : emitted source function code = .ok (context, emitter))
    (start : related (.new function context.frameSlots) (.new function context.frameSlots)) :
    related emitter emitter := by
  obtain ⟨_, _, started, ended⟩ := emitted_eq_ok made
  have entered := kept.prologue context start
  rw [started] at entered
  have done := kept.instructions context entered fun (_ : _) (_ : _ ∈ code) _ _ => trivial
  rwa [ended] at done

end TwinEngine.Lowering
