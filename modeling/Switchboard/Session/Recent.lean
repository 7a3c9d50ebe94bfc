/-!
# The most recent of a series

A list that holds the last items of a series and forgets the oldest when it is full. That it never
holds more than its capacity is part of the type.

## Main definitions

* `Recent`: the items, oldest first.
* `Recent.push`: adds one; `items_push` says what remains.
-/
namespace Switchboard

/-- The last items of a series, at most `capacity` of them, oldest first. -/
structure Recent (α : Type) where
  capacity : Nat
  items : List α
  length_le : items.length ≤ capacity

namespace Recent

variable {α : Type}

/-- Nothing was added yet. -/
def empty (capacity : Nat) : Recent α := ⟨capacity, [], Nat.zero_le _⟩

/-- Adds an item; what is then too much is forgotten from the front. -/
def push (r : Recent α) (x : α) : Recent α where
  capacity := r.capacity
  items := (r.items ++ [x]).drop (r.items.length + 1 - r.capacity)
  length_le := by simp; omega

/-- Forgets everything. -/
def clear (r : Recent α) : Recent α := empty r.capacity

@[simp] theorem items_empty (capacity : Nat) : (empty capacity : Recent α).items = [] := rfl

@[simp] theorem capacity_push (r : Recent α) (x : α) : (r.push x).capacity = r.capacity := rfl

@[simp] theorem items_push (r : Recent α) (x : α) :
    (r.push x).items = (r.items ++ [x]).drop (r.items.length + 1 - r.capacity) := rfl

@[simp] theorem items_clear (r : Recent α) : r.clear.items = [] := rfl

end Recent

end Switchboard
