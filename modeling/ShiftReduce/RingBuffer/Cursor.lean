/-!
# Cursors on a ring

Two cursors run round a ring of `size` places. `distance` is how far the second
lies behind the first, and `place` and `before` are the places around a cursor.
All of them stay on the ring, and the remaining statements say how one step of
either cursor changes the distance and the places in between.
-/

namespace ShiftReduce.RingBuffer

/-- How far `tail` lies behind `head`. -/
def distance (size head tail : Nat) : Nat :=
  if head ≤ tail then tail - head else size - head + tail

/-- The place `index` steps after `head`. -/
def place (size head index : Nat) : Nat :=
  if head + index < size then head + index else head + index - size

/-- The place before `head`. -/
def before (size head : Nat) : Nat :=
  if head = 0 then size - 1 else head - 1

variable {size head tail i j : Nat}

theorem distance_self (size head : Nat) : distance size head head = 0 := by
  unfold distance; split <;> omega

theorem distance_lt (hh : head < size) (ht : tail < size) :
    distance size head tail < size := by
  unfold distance; split <;> omega

theorem distance_eq_zero_iff (hh : head < size) :
    distance size head tail = 0 ↔ head = tail := by
  unfold distance; split <;> omega

theorem place_lt (hh : head < size) (hi : i < size) : place size head i < size := by
  unfold place; split <;> omega

theorem before_lt (hh : head < size) : before size head < size := by
  unfold before; split <;> omega

theorem place_zero (hh : head < size) : place size head 0 = head := by
  unfold place; split <;> omega

theorem place_distance (hh : head < size) (ht : tail < size) :
    place size head (distance size head tail) = tail := by
  unfold place distance; split <;> split <;> omega

theorem place_ne (head : Nat) (hi : i < size) (hj : j < size) (hne : i ≠ j) :
    place size head i ≠ place size head j := by
  unfold place; split <;> split <;> omega

/-- Places counted from the next place. -/
theorem place_next (hh : head < size) (hi : i + 1 < size) :
    place size (place size head 1) i = place size head (i + 1) := by
  unfold place; repeat' split
  all_goals omega

/-- Places counted from the place before. -/
theorem place_before (hh : head < size) (hi : i + 1 < size) :
    place size (before size head) (i + 1) = place size head i := by
  unfold place before; repeat' split
  all_goals omega

theorem distance_next_tail (ht : tail < size) (hroom : distance size head tail + 1 < size) :
    distance size head (place size tail 1) = distance size head tail + 1 := by
  unfold distance place at *; repeat' split at *
  all_goals omega

theorem distance_before_head (hh : head < size) (ht : tail < size)
    (hroom : distance size head tail + 1 < size) :
    distance size (before size head) tail = distance size head tail + 1 := by
  unfold distance before at *; repeat' split at *
  all_goals omega

theorem distance_next_head (hh : head < size) (ht : tail < size)
    (hsome : 0 < distance size head tail) :
    distance size (place size head 1) tail + 1 = distance size head tail := by
  unfold distance place at *; repeat' split at *
  all_goals omega

end ShiftReduce.RingBuffer
