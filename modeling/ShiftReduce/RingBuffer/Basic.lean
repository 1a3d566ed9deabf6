import ShiftReduce.Breach
import ShiftReduce.PowerOfTwo
import ShiftReduce.RingBuffer.Cursor

/-!
# Ring buffers

A queue of bounded length in an array of fixed size, open at both ends for
pushing and in front for taking out. Two cursors run round the array: the items
lie from `head` up to, but without, `tail`. Equal cursors mean an empty buffer,
so one slot always stays free and a buffer of capacity `n` holds at most
`n - 1` items.

* Both cursors are below the capacity, and every slot between them holds an
  item. The type records this, so the only failures are a full buffer, an empty
  buffer and an index past the last item.
* `RingBuffer.toList` is the view through which the operations are described.
-/

namespace ShiftReduce

namespace RingBuffer

variable {α : Type} {slots : Array (Option α)} {head tail n m : Nat}

/-- Whether every slot between two cursors holds an item. -/
def Occupied (slots : Array (Option α)) (head tail : Nat) : Prop :=
  ∀ i, i < distance slots.size head tail → ((slots[place slots.size head i]?).join).isSome

theorem occupied_self (slots : Array (Option α)) (head : Nat) : Occupied slots head head := by
  intro i hi
  rw [distance_self] at hi
  omega

theorem lt_size_set (h : n < slots.size) (i : Nat) (x : Option α) :
    n < (slots.setIfInBounds i x).size := by
  rwa [Array.size_setIfInBounds]

theorem lt_size_replicate (h : n < m) : n < (Array.replicate m (none : Option α)).size := by
  rwa [Array.size_replicate]

/-- Filling the slot at `tail` lets `tail` move on. -/
theorem Occupied.pushBack (ho : Occupied slots head tail) (hh : head < slots.size)
    (ht : tail < slots.size) (hroom : distance slots.size head tail + 1 < slots.size) (x : α) :
    Occupied (slots.setIfInBounds tail (some x)) head (place slots.size tail 1) := by
  intro i hi
  rw [Array.size_setIfInBounds] at hi ⊢
  rw [distance_next_tail ht hroom] at hi
  by_cases hlast : i = distance slots.size head tail
  · subst hlast
    rw [place_distance hh ht, Array.getElem?_setIfInBounds_self_of_lt ht]
    rfl
  · have hne : tail ≠ place slots.size head i := by
      rw [← place_distance hh ht]
      exact place_ne head (by omega) (by omega) (by omega)
    rw [Array.getElem?_setIfInBounds_ne hne]
    exact ho i (by omega)

/-- Filling the slot before `head` lets `head` move there. -/
theorem Occupied.pushFront (ho : Occupied slots head tail) (hh : head < slots.size)
    (ht : tail < slots.size) (hroom : distance slots.size head tail + 1 < slots.size) (x : α) :
    Occupied (slots.setIfInBounds (before slots.size head) (some x)) (before slots.size head)
      tail := by
  intro i hi
  have hb := before_lt hh
  rw [Array.size_setIfInBounds] at hi ⊢
  rw [distance_before_head hh ht hroom] at hi
  cases i with
  | zero =>
    rw [place_zero hb, Array.getElem?_setIfInBounds_self_of_lt hb]
    rfl
  | succ i =>
    have hsize : i + 1 < slots.size := by omega
    have hne := place_ne (before slots.size head) (Nat.zero_lt_of_lt hsize) hsize (by omega)
    rw [place_zero hb] at hne
    rw [Array.getElem?_setIfInBounds_ne hne, place_before hh hsize]
    exact ho i (by omega)

/-- Emptying the slot at `head` makes `head` move on. -/
theorem Occupied.popFront (ho : Occupied slots head tail) (hh : head < slots.size)
    (ht : tail < slots.size) (hsome : 0 < distance slots.size head tail) :
    Occupied (slots.setIfInBounds head none) (place slots.size head 1) tail := by
  intro i hi
  have hlt := distance_lt hh ht
  have hnext := distance_next_head hh ht hsome
  rw [Array.size_setIfInBounds] at hi ⊢
  have hsize : i + 1 < slots.size := by omega
  have hne := place_ne head (Nat.zero_lt_of_lt hsize) hsize (by omega)
  rw [place_zero hh] at hne
  rw [place_next hh hsize, Array.getElem?_setIfInBounds_ne hne]
  exact ho (i + 1) (by omega)

/-- Filling any slot keeps the others. -/
theorem Occupied.set (ho : Occupied slots head tail) (index : Nat) (x : α) :
    Occupied (slots.setIfInBounds index (some x)) head tail := by
  intro i hi
  rw [Array.size_setIfInBounds] at hi ⊢
  have hold := ho i hi
  rw [Array.getElem?_setIfInBounds]
  split
  · split
    · rfl
    · rw [Array.getElem?_eq_none (by omega)] at hold
      exact hold
  · exact hold

end RingBuffer

/-- A bounded queue in an array that two cursors run round. -/
structure RingBuffer (α : Type) where
  slots : Array (Option α)
  head : Nat
  tail : Nat
  head_lt : head < slots.size
  tail_lt : tail < slots.size
  occupied : RingBuffer.Occupied slots head tail

namespace RingBuffer

variable {α : Type}

/-- The number of slots. -/
def capacity (b : RingBuffer α) : Nat := b.slots.size

def length (b : RingBuffer α) : Nat := distance b.slots.size b.head b.tail

def isEmpty (b : RingBuffer α) : Bool := b.head == b.tail

/-- Whether only the slot that stays free is left. -/
def isFull (b : RingBuffer α) : Bool := b.length + 1 == b.capacity

/-- The item `index` places after the first. -/
def get? (b : RingBuffer α) (index : Nat) : Option α :=
  if index < b.length then (b.slots[place b.slots.size b.head index]?).join else none

/-- The items, first to last. -/
def toList (b : RingBuffer α) : List α := (List.range b.length).filterMap b.get?

theorem length_lt_capacity (b : RingBuffer α) : b.length < b.capacity :=
  distance_lt b.head_lt b.tail_lt

theorem isEmpty_iff (b : RingBuffer α) : b.isEmpty = true ↔ b.length = 0 := by
  rw [isEmpty, beq_iff_eq, length, distance_eq_zero_iff b.head_lt]

theorem isFull_iff (b : RingBuffer α) : b.isFull = true ↔ b.length + 1 = b.capacity := by
  rw [isFull, beq_iff_eq]

/-- A buffer that is not full has a slot left besides the one that stays free. -/
theorem room (b : RingBuffer α) (h : ¬ b.isFull = true) :
    distance b.slots.size b.head b.tail + 1 < b.slots.size := by
  rw [isFull_iff] at h
  have hlt := b.length_lt_capacity
  unfold length capacity at *
  omega

theorem one_lt_size_of_room (b : RingBuffer α) (h : ¬ b.isFull = true) : 1 < b.slots.size := by
  have hroom := b.room h
  omega

/-- A buffer has at least two slots if it holds an item. -/
theorem one_lt_size (b : RingBuffer α) (h : 0 < b.length) : 1 < b.slots.size := by
  have hlt := b.length_lt_capacity
  unfold capacity at hlt
  omega

/-! ## Operations -/

/-- Free slots, and both cursors at the first of them. -/
def blank (capacity : Nat) (h : 0 < capacity) : RingBuffer α :=
  { slots := Array.replicate capacity none
    head := 0
    tail := 0
    head_lt := lt_size_replicate h
    tail_lt := lt_size_replicate h
    occupied := occupied_self _ _ }

/-- Whether so many slots of so many bytes each can be had in one allocation, which takes less
than half of the addresses. -/
def Allocatable (capacity slotBytes : Nat) : Prop := capacity * slotBytes < UInt64.size / 2

instance (capacity slotBytes : Nat) : Decidable (Allocatable capacity slotBytes) :=
  inferInstanceAs (Decidable (_ < _))

/-- An empty buffer. The capacity has to be a power of two, and at least two, and
all slots are allocated at once. The bytes of a slot depend on the type of the
items: an integer of 64 bits that may be missing takes 16. -/
def ofCapacity (capacity : Nat) (slotBytes : Nat := 16) : Checked (RingBuffer α) :=
  if h : 2 ≤ capacity ∧ PowerOfTwo.isPower capacity = true then
    if Allocatable capacity slotBytes then
      .ok (blank capacity (Nat.lt_of_lt_of_le Nat.two_pos h.1))
    else .error .capacityOverflow
  else .error (.ringCapacity capacity)

def pushBack (b : RingBuffer α) (x : α) : Checked (RingBuffer α) :=
  if h : b.isFull = true then .error .ringFull
  else
    .ok
      { slots := b.slots.setIfInBounds b.tail (some x)
        head := b.head
        tail := place b.slots.size b.tail 1
        head_lt := lt_size_set b.head_lt _ _
        tail_lt := lt_size_set (place_lt b.tail_lt (b.one_lt_size_of_room h)) _ _
        occupied := b.occupied.pushBack b.head_lt b.tail_lt (b.room h) x }

def pushFront (b : RingBuffer α) (x : α) : Checked (RingBuffer α) :=
  if h : b.isFull = true then .error .ringFull
  else
    .ok
      { slots := b.slots.setIfInBounds (before b.slots.size b.head) (some x)
        head := before b.slots.size b.head
        tail := b.tail
        head_lt := lt_size_set (before_lt b.head_lt) _ _
        tail_lt := lt_size_set b.tail_lt _ _
        occupied := b.occupied.pushFront b.head_lt b.tail_lt (b.room h) x }

/-- A non-empty buffer without its first item. -/
def tailOf (b : RingBuffer α) (h : 0 < b.length) : RingBuffer α :=
  { slots := b.slots.setIfInBounds b.head none
    head := place b.slots.size b.head 1
    tail := b.tail
    head_lt := lt_size_set (place_lt b.head_lt (b.one_lt_size h)) _ _
    tail_lt := lt_size_set b.tail_lt _ _
    occupied := b.occupied.popFront b.head_lt b.tail_lt h }

theorem length_tailOf (b : RingBuffer α) (h : 0 < b.length) :
    (b.tailOf h).length + 1 = b.length := by
  simp only [length, tailOf, Array.size_setIfInBounds]
  exact distance_next_head b.head_lt b.tail_lt h

def popFront (b : RingBuffer α) : Checked (α × RingBuffer α) :=
  if h : 0 < b.length then
    match b.get? 0 with
    | some x => .ok (x, b.tailOf h)
    | none => .error .ringSlot
  else .error .ringEmpty

/-- The item `index` places after the first, which has to exist. -/
def get (b : RingBuffer α) (index : Nat) : Checked α :=
  match b.get? index with
  | some x => .ok x
  | none => .error (.ringIndex index b.length)

/-- The first item. -/
def peek (b : RingBuffer α) : Checked α :=
  if b.isEmpty then .error .ringEmpty else b.get 0

/-- Replaces the item `index` places after the first. Past the last item
nothing changes. -/
def set (b : RingBuffer α) (index : Nat) (x : α) : RingBuffer α :=
  if index < b.length then
    { slots := b.slots.setIfInBounds (place b.slots.size b.head index) (some x)
      head := b.head
      tail := b.tail
      head_lt := lt_size_set b.head_lt _ _
      tail_lt := lt_size_set b.tail_lt _ _
      occupied := b.occupied.set _ x }
  else b

/-- Replaces the item `index` places after the first, which has to exist. -/
def put (b : RingBuffer α) (index : Nat) (x : α) : Checked (RingBuffer α) :=
  if index < b.length then .ok (b.set index x)
  else .error (.ringIndex index b.length)

/-- Takes out all items, one after the other. -/
def clear (b : RingBuffer α) : RingBuffer α :=
  if h : 0 < b.length then (b.tailOf h).clear else b
termination_by b.length
decreasing_by
  have hlen := b.length_tailOf h
  omega

end RingBuffer

end ShiftReduce
