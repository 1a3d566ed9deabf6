import ShiftReduce.Breach
import ShiftReduce.PowerOfTwo

/-!
# Stacks

A stack keeps its items in one array, bottom first, and accounts for the room
it has reserved. Room only grows: a push that finds the stack full doubles it,
and a copy that does not fit makes it the next power of two that does.
-/

namespace ShiftReduce

/-- Items, bottom first, in reserved room. -/
structure Stack (α : Type) where
  items : Array α
  capacity : Nat
  fits : items.size ≤ capacity
  deriving Repr

namespace Stack

variable {α : Type}

/-- The room of a stack that is made without asking for any. -/
def defaultCapacity : Nat := 16

/-- An empty stack with room for at least one item. -/
def withCapacity (capacity : Nat) : Stack α :=
  ⟨#[], max capacity 1, Nat.zero_le _⟩

def empty : Stack α := withCapacity defaultCapacity

def size (s : Stack α) : Nat := s.items.size

def isEmpty (s : Stack α) : Bool := s.items.isEmpty

def top? (s : Stack α) : Option α := s.items.back?

/-- The item at an index, counted from the bottom. -/
def get? (s : Stack α) (index : Nat) : Option α := s.items[index]?

def push (s : Stack α) (x : α) : Stack α :=
  if h : s.items.size = s.capacity then
    ⟨s.items.push x, s.capacity + max s.capacity 1, by simp only [Array.size_push]; omega⟩
  else
    ⟨s.items.push x, s.capacity, by
      have := s.fits
      simp only [Array.size_push]; omega⟩

/-- Drops the top item; an empty stack stays empty. -/
def drop (s : Stack α) : Stack α :=
  ⟨s.items.pop, s.capacity, by
    have := s.fits
    simp only [Array.size_pop]; omega⟩

/-- Takes the top item off. -/
def pop? (s : Stack α) : Option (α × Stack α) :=
  s.top?.map fun x => (x, s.drop)

/-- Replaces the top item; an empty stack stays empty. -/
def setTop (s : Stack α) (x : α) : Stack α :=
  ⟨s.items.setIfInBounds (s.items.size - 1) x, s.capacity, by
    have := s.fits
    simp only [Array.size_setIfInBounds]; omega⟩

/-- Drops everything above the lowest `depth` items. -/
def truncate (s : Stack α) (depth : Nat) : Stack α :=
  ⟨s.items.take depth, s.capacity, by
    have := s.fits
    simp only [Array.take_eq_extract, Array.size_extract]; omega⟩

def clear (s : Stack α) : Stack α := ⟨#[], s.capacity, Nat.zero_le _⟩

/-- The items from an index up to the top. -/
def sliceFrom (s : Stack α) (start : Nat) : Checked (Array α) :=
  if start ≤ s.items.size then .ok (s.items.extract start s.items.size)
  else .error .sliceOutOfRange

/-- Replaces the contents by a copy of the given items. -/
def copyFrom (s : Stack α) (items : Array α) : Stack α :=
  if h : s.capacity < items.size then
    ⟨items, PowerOfTwo.roundUp items.size, PowerOfTwo.le_roundUp _⟩
  else ⟨items, s.capacity, by omega⟩

/-! ## The items -/

theorem items_push (s : Stack α) (x : α) : (s.push x).items = s.items.push x := by
  unfold push
  split <;> rfl

theorem items_setTop (s : Stack α) (x : α) :
    (s.setTop x).items = s.items.setIfInBounds (s.items.size - 1) x := rfl

theorem items_truncate (s : Stack α) (depth : Nat) :
    (s.truncate depth).items = s.items.take depth := rfl

theorem items_copyFrom (s : Stack α) (items : Array α) : (s.copyFrom items).items = items := by
  unfold copyFrom
  split <;> rfl

theorem size_push (s : Stack α) (x : α) : (s.push x).size = s.size + 1 := by
  rw [size, items_push, Array.size_push, size]

theorem size_truncate (s : Stack α) (depth : Nat) : (s.truncate depth).size = min depth s.size := by
  rw [size, items_truncate, Array.take_eq_extract, Array.size_extract, size]
  omega

theorem top?_push (s : Stack α) (x : α) : (s.push x).top? = some x := by
  rw [top?, items_push, Array.back?_push]

end Stack

end ShiftReduce
