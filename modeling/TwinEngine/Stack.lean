/-!
Contract: stacks that know their height.

Owns: the operations on a stack, and what they do to its items.

Taking from an empty stack gives a stand-in and leaves it empty.
-/

namespace TwinEngine

/-- A stack. The last item is first. -/
structure Stack (α : Type) where
  items : List α
  height : Nat
  height_eq : height = items.length
deriving DecidableEq, Repr

namespace Stack

variable {α : Type}

def empty : Stack α := ⟨[], 0, rfl⟩

instance : Inhabited (Stack α) := ⟨empty⟩

@[inline] def push (stack : Stack α) (item : α) : Stack α :=
  match stack with
  | ⟨items, height, height_eq⟩ => ⟨item :: items, height + 1, by simp [height_eq]⟩

@[inline] def pop (stack : Stack α) (standIn : α) : α × Stack α :=
  match stack with
  | ⟨[], _, _⟩ => (standIn, empty)
  | ⟨item :: items, height, height_eq⟩ =>
    (item, ⟨items, height - 1, by simp [height_eq]⟩)

def top (stack : Stack α) (standIn : α) : α := stack.items.headD standIn

/-- The last `count` items in the order in which they were pushed, or as many as there are. -/
def last (stack : Stack α) (count : Nat) : List α := (stack.items.take count).reverse

def drop (stack : Stack α) (count : Nat) : Stack α :=
  match stack with
  | ⟨items, height, height_eq⟩ => ⟨items.drop count, height - count, by simp [height_eq]⟩

def pushAll (stack : Stack α) (items : List α) : Stack α := items.foldl push stack

def truncate (stack : Stack α) (height : Nat) : Stack α := stack.drop (stack.height - height)

/-- The items above a height in the order in which they were pushed. -/
def above (stack : Stack α) (height : Nat) : List α := stack.last (stack.height - height)

/-- Move the last `count` items down to a height, in place of those that stood there. -/
def settle (stack : Stack α) (height count : Nat) : Stack α :=
  ((stack.drop count).truncate height).pushAll (stack.last count)

/-! ## Items of the results -/

@[simp] theorem items_empty : (empty : Stack α).items = [] := rfl

@[simp] theorem items_push (stack : Stack α) (item : α) :
    (stack.push item).items = item :: stack.items := rfl

@[simp] theorem items_drop (stack : Stack α) (count : Nat) :
    (stack.drop count).items = stack.items.drop count := rfl

@[simp] theorem items_truncate (stack : Stack α) (height : Nat) :
    (stack.truncate height).items = stack.items.drop (stack.height - height) := rfl

@[simp] theorem items_pushAll (stack : Stack α) (items : List α) :
    (stack.pushAll items).items = items.reverse ++ stack.items := by
  induction items generalizing stack with
  | nil => rfl
  | cons item rest ih =>
    simp [pushAll, List.foldl_cons] at ih ⊢
    rw [ih]
    simp

theorem items_settle (stack : Stack α) (height count : Nat) :
    (stack.settle height count).items =
      stack.items.take count ++ (stack.items.drop count).drop (stack.height - count - height) := by
  simp [settle, last, drop]

theorem ext_items {left right : Stack α} (same : left.items = right.items) : left = right := by
  cases left with
  | mk items height height_eq =>
    cases right with
    | mk others other other_eq =>
      subst height_eq other_eq
      cases same
      rfl

end Stack

end TwinEngine
