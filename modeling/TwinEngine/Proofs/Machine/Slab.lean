import Mathlib.Data.List.Induction
import Mathlib.Data.List.Infix
import TwinEngine.Machine.Boxes

/-!
Contract: a box is kept from the put that gives its handle out to the take that brings it back.

Owns: the free list of a slab, runs of requests to a slab with the history that they leave, and
which slots a handle stands for after any of them.
-/

namespace TwinEngine.Machine.Boxes

variable {boxes after : Boxes} {handle : UInt32} {slots : List UInt32}

/-! ## The free list -/

/-- The free list holds each empty cell once, and no other. -/
structure Tidy (boxes : Boxes) : Prop where
  nodup : boxes.free.Nodup
  mem_free : ∀ index, index ∈ boxes.free ↔ boxes.cells[index]? = some none

/-- Where the next box goes. -/
def place (boxes : Boxes) : Nat := boxes.free.headD boxes.cells.size

theorem fst_put : (boxes.put slots).1 = UInt32.ofNat boxes.place := by
  cases free : boxes.free <;> simp [put, place, free]

theorem free_put : (boxes.put slots).2.free = boxes.free.tail := by
  cases free : boxes.free <;> simp [put, free]

theorem take_eq_some : boxes.take handle = some (slots, after) ↔
    boxes.cells[handle.toNat]? = some (some slots) ∧
      after = ⟨boxes.cells.setIfInBounds handle.toNat none, handle.toNat :: boxes.free⟩ := by
  unfold take
  split <;> grind

theorem fst_take : (boxes.take handle).map Prod.fst = boxes.cells[handle.toNat]?.join := by
  unfold take
  rcases boxes.cells[handle.toNat]? with _ | _ | _ <;> rfl

theorem exists_take (found : boxes.cells[handle.toNat]? = some (some slots)) :
    ∃ after, boxes.take handle = some (slots, after) :=
  ⟨_, take_eq_some.mpr ⟨found, rfl⟩⟩

namespace Tidy

theorem empty : Tidy .empty := ⟨.nil, by simp [Boxes.empty]⟩

variable (tidy : boxes.Tidy)
include tidy

/-- The next box goes to an empty cell, or to a new one. -/
theorem cases_place : boxes.cells[boxes.place]? = some none ∨
    boxes.free = [] ∧ boxes.place = boxes.cells.size := by
  cases free : boxes.free with
  | nil => exact .inr ⟨rfl, by simp [place, free]⟩
  | cons first rest => exact .inl ((tidy.mem_free _).mp (by simp [place, free]))

/-- A put fills the next place and leaves all other cells. -/
theorem getElem?_put (slots : List UInt32) (index : Nat) : (boxes.put slots).2.cells[index]? =
    if index = boxes.place then some (some slots) else boxes.cells[index]? := by
  have next := tidy.cases_place
  cases free : boxes.free <;> grind [Boxes.put, place]

theorem join_place : boxes.cells[boxes.place]?.join = none := by
  rcases tidy.cases_place with empty | ⟨-, new⟩
  · rw [empty, Option.join_some]
  · rw [new, Array.getElem?_eq_none (Nat.le_refl _), Option.join_none]

theorem toNat_fst_put (few : boxes.cells.size < 2 ^ 32) :
    (boxes.put slots).1.toNat = boxes.place := by
  have inside : boxes.place ≤ boxes.cells.size := by
    have next := tidy.cases_place
    grind
  rw [fst_put, UInt32.toNat_ofNat']
  omega

/-- A box that was put can be taken. -/
theorem take_put (few : boxes.cells.size < 2 ^ 32) (slots : List UInt32) :
    ∃ after, (boxes.put slots).2.take (boxes.put slots).1 = some (slots, after) :=
  exists_take (by rw [tidy.toNat_fst_put few, tidy.getElem?_put, if_pos rfl])

theorem put (slots : List UInt32) : (boxes.put slots).2.Tidy := by
  refine ⟨free_put ▸ tidy.nodup.tail, fun index => ?_⟩
  have nodup := tidy.nodup
  have member := tidy.mem_free index
  rw [free_put, tidy.getElem?_put]
  cases free : boxes.free <;> grind [place]

theorem take (taken : boxes.take handle = some (slots, after)) : after.Tidy := by
  obtain ⟨found, rfl⟩ := take_eq_some.mp taken
  have full : handle.toNat ∉ boxes.free := fun member => by
    cases found.symm.trans ((tidy.mem_free _).mp member)
  refine ⟨List.nodup_cons.mpr ⟨full, tidy.nodup⟩, fun index => ?_⟩
  have member := tidy.mem_free index
  grind

end Tidy

/-- The boxes that are left by any puts and takes. -/
inductive Used : Boxes → Prop
  | empty : Used .empty
  | put {boxes : Boxes} (slots : List UInt32) : Used boxes → Used (boxes.put slots).2
  | take {boxes after : Boxes} {handle : UInt32} {slots : List UInt32} :
      Used boxes → boxes.take handle = some (slots, after) → Used after

theorem Used.tidy (used : Used boxes) : boxes.Tidy := by
  induction used with
  | empty => exact .empty
  | put slots _ tidy => exact tidy.put slots
  | take _ taken tidy => exact tidy.take taken

/-! ## Runs -/

inductive Request where
  | put (slots : List UInt32)
  | take (handle : UInt32)

inductive Event where
  | put (handle : UInt32) (slots : List UInt32)
  | take (handle : UInt32)

/-- A request served by the slab, with what happened so far, the latest event first. -/
def serve (state : List Event × Boxes) : Request → List Event × Boxes
  | .put slots => (.put (state.2.put slots).1 slots :: state.1, (state.2.put slots).2)
  | .take handle =>
    match state.2.take handle with
    | some (_, after) => (.take handle :: state.1, after)
    | none => state

def run (requests : List Request) : List Event × Boxes := requests.foldl serve ([], .empty)

/-- The slots of the latest put that gave the handle out, unless they were taken since. -/
def held (handle : UInt32) : List Event → Option (List UInt32)
  | [] => none
  | .put given slots :: history => if given = handle then some slots else held handle history
  | .take taken :: history => if taken = handle then none else held handle history

/-- How many boxes the slab holds. -/
def live (boxes : Boxes) : Nat := boxes.cells.countP Option.isSome

variable {history : List Event}

/-- The cells of the slab hold what its history says. -/
structure Keeps (history : List Event) (boxes : Boxes) : Prop extends Tidy boxes where
  few : boxes.cells.size < 2 ^ 32
  held_eq : ∀ handle, held handle history = boxes.cells[handle.toNat]?.join

/-- The slab grows only when all its cells are full. -/
theorem Tidy.size_put (tidy : boxes.Tidy) (small : boxes.cells.size < 2 ^ 32)
    (few : (boxes.put slots).2.live < 2 ^ 32) : (boxes.put slots).2.cells.size < 2 ^ 32 := by
  cases free : boxes.free with
  | cons first rest => simpa [Boxes.put, free] using small
  | nil =>
    have full : (boxes.put slots).2.live = (boxes.put slots).2.cells.size := by
      refine Array.countP_eq_size.mpr fun cell member => ?_
      obtain ⟨index, found⟩ := Array.getElem?_of_mem member
      cases cell with
      | some _ => rfl
      | none =>
        have listed := ((tidy.put slots).mem_free index).mpr found
        rw [free_put, free] at listed
        cases listed
    rwa [full] at few

namespace Keeps

variable (keeps : Keeps history boxes)
include keeps

theorem held_put : held (boxes.put slots).1 history = none := by
  rw [keeps.held_eq, keeps.toNat_fst_put keeps.few, keeps.join_place]

theorem put (few : (boxes.put slots).2.live < 2 ^ 32) :
    Keeps (.put (boxes.put slots).1 slots :: history) (boxes.put slots).2 := by
  refine ⟨keeps.toTidy.put slots, keeps.size_put keeps.few few, fun other => ?_⟩
  rw [held, keeps.held_eq, keeps.getElem?_put, ← keeps.toNat_fst_put keeps.few]
  by_cases same : (boxes.put slots).1 = other
  · rw [same, if_pos rfl, if_pos rfl, Option.join_some]
  · rw [if_neg same, if_neg fun equal => same (UInt32.toNat_inj.mp equal).symm]

theorem take (taken : boxes.take handle = some (slots, after)) :
    Keeps (.take handle :: history) after := by
  obtain ⟨found, rfl⟩ := take_eq_some.mp taken
  refine ⟨keeps.toTidy.take taken, by simpa using keeps.few, fun other => ?_⟩
  rw [held, keeps.held_eq, Array.getElem?_setIfInBounds]
  by_cases same : handle = other
  · rw [same, if_pos rfl, if_pos rfl]
    split <;> rfl
  · rw [if_neg same, if_neg fun equal => same (UInt32.toNat_inj.mp equal)]

end Keeps

theorem run_append (requests : List Request) (request : Request) :
    run (requests ++ [request]) = serve (run requests) request :=
  List.foldl_append

theorem keeps_run (requests : List Request)
    (few : ∀ served, served <+: requests → (run served).2.live < 2 ^ 32) :
    Keeps (run requests).1 (run requests).2 := by
  induction requests using List.reverseRecOn with
  | nil => exact ⟨.empty, by decide, fun handle => by simp [run, held, Boxes.empty]⟩
  | append_singleton requests request ih =>
    have before := ih fun served part => few served (part.trans (List.prefix_append _ _))
    have last := few _ List.prefix_rfl
    rw [run_append] at last ⊢
    cases request with
    | put slots => exact before.put last
    | take handle =>
      unfold serve
      dsimp only
      split
      · rename_i taken
        exact before.take taken
      · exact before

/-- The free list of a slab holds each empty cell once and no other. A put gives out a handle that
stands for no box and leaves the boxes that are there. A take gives the slots of the latest put that
gave its handle out, if they were not taken since, and otherwise fails and changes nothing. -/
theorem slab_keeps_boxes (requests : List Request)
    (few : ∀ served, served <+: requests → (run served).2.live < 2 ^ 32) :
    (run requests).2.free.Nodup ∧
    (∀ index, index ∈ (run requests).2.free ↔ (run requests).2.cells[index]? = some none) ∧
    (∀ slots, held ((run requests).2.put slots).1 (run requests).1 = none ∧
      ∀ handle kept, held handle (run requests).1 = some kept →
        ∃ rest, ((run requests).2.put slots).2.take handle = some (kept, rest)) ∧
    ∀ handle, ((run requests).2.take handle).map Prod.fst = held handle (run requests).1 ∧
      (held handle (run requests).1 = none → run (requests ++ [.take handle]) = run requests) := by
  have keeps := keeps_run requests few
  refine ⟨keeps.nodup, keeps.mem_free, fun slots => ⟨keeps.held_put, fun handle kept found => ?_⟩,
    fun handle => ?_⟩
  · have other : handle.toNat ≠ (run requests).2.place := fun same => by
      rw [keeps.held_eq, same, keeps.join_place] at found
      cases found
    rw [keeps.held_eq, Option.join_eq_some_iff] at found
    exact exists_take (by rw [keeps.getElem?_put, if_neg other, found])
  · have taken : ((run requests).2.take handle).map Prod.fst = held handle (run requests).1 := by
      rw [fst_take, keeps.held_eq]
    refine ⟨taken, fun absent => ?_⟩
    rw [absent, Option.map_eq_none_iff] at taken
    simp only [run_append, serve, taken]

theorem slab_keeps_boxes_again :
    ((run [.put [1, 2], .put [3], .take 0, .take 0, .put [4]]).2.take 0).map Prod.fst =
      held 0 [.put 0 [4], .take 0, .put 1 [3], .put 0 [1, 2]] := by
  have few : ∀ served ∈ [.put [1, 2], .put [3], .take 0, .take 0, .put [4]].inits,
      (run served).2.live < 2 ^ 32 := by decide
  exact ((slab_keeps_boxes _ fun served part =>
    few served ((List.mem_inits _ _).mpr part)).2.2.2 0).1

end TwinEngine.Machine.Boxes
