import Mathlib.Data.List.Induction
import Mathlib.Data.List.Infix
import TwinEngine.TypeStack

/-!
Contract: both arms of a conditional start from the same stack of kinds.

Owns: runs of operations on a stack of kinds, that they never remove the stack at the bottom, that a
balanced run between a snapshot and its end leaves all stacks as they were, and the stack that a
restore sets.
-/

namespace TwinEngine.TypeStack

variable {stack : TypeStack} {operations : List Operation}

/-- The stack after operations, of which any may fail. -/
def run (stack : TypeStack) (operations : List Operation) : TypeStack :=
  operations.foldl (fun stack operation => (stack.apply operation).2) stack

theorem run_append (operation : Operation) :
    stack.run (operations ++ [operation]) = ((stack.run operations).apply operation).2 :=
  List.foldl_append

/-! ## Saved stacks -/

/-- What an operation makes of the stacks saved below a live one. -/
def Operation.saves (live : List ValueKind) (saved : List (List ValueKind)) :
    Operation → List (List ValueKind)
  | .snapshot => live :: saved
  | .unsnapshot => saved.tail
  | _ => saved

theorem saved_apply (operation : Operation) :
    (stack.apply operation).2.saved = operation.saves stack.live stack.saved := by
  cases operation <;> grind [apply, apply.done, push, pop, popAny, enter, exit, snapshot,
    unsnapshot, restore, Operation.saves]

/-- The stack at the bottom. -/
def base (stack : TypeStack) : List ValueKind :=
  (stack.live :: stack.saved).getLast (List.cons_ne_nil _ _)

/-- A stack that lies below others is not touched. -/
theorem base_apply (operation : Operation) (covered : stack.saved ≠ []) :
    (stack.apply operation).2.base = stack.base := by
  have same := @saved_apply stack operation
  obtain ⟨live, _ | ⟨first, saved⟩, scopes⟩ := stack
  · exact absurd rfl covered
  cases operation with
  | snapshot | unsnapshot => rfl
  | _ => simp only [base, same, Operation.saves, List.getLast_cons_cons]

/-- How many stacks are saved after an operation. -/
def Operation.level (saved : Nat) : Operation → Nat
  | .snapshot => saved + 1
  | .unsnapshot => saved - 1
  | _ => saved

theorem length_saved_run : (stack.run operations).saved.length =
    operations.foldl Operation.level stack.saved.length := by
  induction operations using List.reverseRecOn with
  | nil => rfl
  | append_singleton operations operation ih =>
    rw [run_append, saved_apply, List.foldl_append, ← ih]
    cases operation <;> simp [Operation.saves, Operation.level]

/-- No first part ends more snapshots than it makes. -/
def Covered (operations : List Operation) : Prop :=
  ∀ part, part <+: operations → part.count .unsnapshot ≤ part.count .snapshot

theorem saved_run_snapshot (stack : TypeStack) (covered : Covered operations) :
    ∃ above, (stack.snapshot.run operations).saved = above ++ stack.live :: stack.saved ∧
      above.length + operations.count .unsnapshot = operations.count .snapshot := by
  induction operations using List.reverseRecOn with
  | nil => exact ⟨[], rfl, rfl⟩
  | append_singleton operations operation ih =>
    obtain ⟨above, same, length⟩ :=
      ih fun part short => covered part (short.trans (List.prefix_append _ _))
    have last := covered _ List.prefix_rfl
    simp only [List.count_append, List.count_singleton] at last ⊢
    rw [run_append, saved_apply, same]
    cases operation with
    | snapshot => exact ⟨_ :: above, rfl, by simp; omega⟩
    | unsnapshot =>
      cases above with
      | nil => simp at length last; omega
      | cons first above => exact ⟨above, rfl, by simp at length ⊢; omega⟩
    | _ => exact ⟨above, rfl, by simpa using length⟩

/-! ## Scopes -/

/-- An operation keeps the open scopes, below a new one if it opens one, or leaves the innermost. -/
theorem scopes_apply (operation : Operation) : stack.scopes <:+ (stack.apply operation).2.scopes ∨
      (stack.apply operation).2.scopes = stack.scopes.tail := by
  cases operation <;>
    grind [apply, apply.done, push, pop, popAny, enter, exit, snapshot, unsnapshot, restore]

/-- Scopes that were never left stay where they are. -/
theorem suffix_scopes_run (start : bottom <:+ stack.scopes)
    (kept : ∀ part, part <+: operations → bottom.length ≤ (stack.run part).scopes.length) :
    bottom <:+ (stack.run operations).scopes := by
  induction operations using List.reverseRecOn with
  | nil => exact start
  | append_singleton operations operation ih =>
    have before := ih fun part short => kept part (short.trans (List.prefix_append _ _))
    have last := kept _ List.prefix_rfl
    rw [run_append] at last ⊢
    rcases scopes_apply operation with grown | left
    · exact before.trans grown
    · rw [left] at last ⊢
      exact List.suffix_of_suffix_length_le before (List.tail_suffix _) last

theorem scopes_enter {id : Scope} (enters : stack.enter id type = (.ok (), entered)) :
    ∃ scope, entered.scopes = scope :: stack.scopes ∧ scope.id = id ∧
      scope.restore = type.results.reverse ++ stack.live.drop type.params.length := by
  unfold enter at enters
  split at enters
  · cases enters
  · cases enters
    exact ⟨_, rfl, rfl, rfl⟩

/-- No operation, failed or not, removes the stack at the bottom. What a balanced run does between a
snapshot and its end is undone by the end. While a scope is innermost, a restore sets the stack to
what was there when the scope was entered, with its results in place of its parameters. -/
theorem snapshots_isolate :
    (∀ operations, (empty.run operations).saved.length = operations.foldl Operation.level 0 ∧
      ((empty.run operations).saved = [] → (empty.run operations).unsnapshot =
        (.error (.internal .noSnapshot), empty.run operations)) ∧
      ((empty.run operations).saved ≠ [] → ∀ operation,
        ((empty.run operations).apply operation).2.base = (empty.run operations).base)) ∧
    (∀ (stack : TypeStack) operations, Covered operations →
      operations.count .unsnapshot = operations.count .snapshot →
      ∃ after, (stack.snapshot.run operations).unsnapshot = (.ok (), after) ∧
        after.live = stack.live ∧ after.saved = stack.saved) ∧
    ∀ (stack entered : TypeStack) id type operations, stack.enter id type = (.ok (), entered) →
      (∀ part, part <+: operations → stack.scopes.length < (entered.run part).scopes.length) →
      (entered.run operations).scopes.length = stack.scopes.length + 1 →
      ∃ after, (entered.run operations).restore id = (.ok (), after) ∧
        after.types = stack.types.take (stack.length - type.params.length) ++ type.results := by
  refine ⟨fun operations => ⟨length_saved_run, fun alone => ?_, fun covered operation =>
    base_apply operation covered⟩, fun stack operations covered even => ?_,
    fun stack entered id type operations enters kept innermost => ?_⟩
  · rw [unsnapshot, alone]
  · obtain ⟨above, same, length⟩ := saved_run_snapshot stack covered
    rw [even, Nat.add_eq_right, List.length_eq_zero_iff] at length
    rw [length, List.nil_append] at same
    rw [unsnapshot, same]
    exact ⟨_, rfl, rfl, rfl⟩
  · obtain ⟨scope, opened, named, restored⟩ := scopes_enter enters
    have inside : scope :: stack.scopes <:+ (entered.run operations).scopes :=
      suffix_scopes_run (opened ▸ List.suffix_rfl) kept
    rw [restore, ← inside.eq_of_length innermost.symm]
    exact ⟨_, if_pos named, by simp [types, length, restored, List.reverse_drop]⟩

theorem snapshots_isolate_failures :
    (∃ after, ((empty.push .i32).snapshot.run [.pop .i64, .popAny]).unsnapshot = (.ok (), after) ∧
      after.live = [.i32] ∧ after.saved = []) ∧
    ∃ after, (((empty.push .i32).enter .function ⟨[.i32], [.f64]⟩).2.run [.popAny, .popAny]).restore
      .function = (.ok (), after) ∧ after.types = [.f64] := by
  have covered : ∀ part ∈ [.pop .i64, .popAny].inits,
      part.count Operation.unsnapshot ≤ part.count .snapshot := by decide
  have kept : ∀ part ∈ [.popAny, .popAny].inits, 0 <
      (((empty.push .i32).enter .function ⟨[.i32], [.f64]⟩).2.run part).scopes.length := by decide
  exact ⟨snapshots_isolate.2.1 (empty.push .i32) _
      (fun part short => covered part ((List.mem_inits _ _).mpr short)) rfl,
    snapshots_isolate.2.2 (empty.push .i32) _ .function ⟨[.i32], [.f64]⟩ _ rfl
      (fun part short => kept part ((List.mem_inits _ _).mpr short)) rfl⟩

end TwinEngine.TypeStack
