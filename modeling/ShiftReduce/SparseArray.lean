/-!
# Sparse arrays

An array of optional items stands for a table that goes on without items past
its end. Setting an item makes room for it. The table is described by `get?`
alone (`get?_set`).
-/

namespace ShiftReduce

/-- A table with items at some of the indices. -/
abbrev SparseArray (α : Type) := Array (Option α)

namespace SparseArray

variable {α : Type}

def get? (a : SparseArray α) (index : Nat) : Option α := (a[index]?).join

/-- The table with empty places up to an index. -/
def pad (a : SparseArray α) (index : Nat) : SparseArray α :=
  a ++ Array.replicate (index + 1 - a.size) none

def set (a : SparseArray α) (index : Nat) (x : α) : SparseArray α :=
  (a.pad index).setIfInBounds index (some x)

theorem size_pad (a : SparseArray α) (index : Nat) :
    (a.pad index).size = max a.size (index + 1) := by
  rw [pad, Array.size_append, Array.size_replicate]
  omega

theorem get?_of_size_le {a : SparseArray α} {i : Nat} (hi : a.size ≤ i) : a.get? i = none := by
  rw [get?, Array.getElem?_eq_none hi]
  rfl

theorem get?_pad (a : SparseArray α) (index i : Nat) : (a.pad index).get? i = a.get? i := by
  by_cases hi : i < a.size
  · rw [get?, pad, Array.getElem?_append_left hi, get?]
  · rw [get?_of_size_le (a := a) (by omega), get?, pad, Array.getElem?_append_right (by omega),
      Array.getElem?_replicate]
    split <;> rfl

theorem get?_set (a : SparseArray α) (index i : Nat) (x : α) :
    (a.set index x).get? i = if index = i then some x else a.get? i := by
  by_cases heq : index = i
  · subst heq
    have hlt : index < (a.pad index).size := by rw [size_pad]; omega
    rw [if_pos rfl, get?, set, Array.getElem?_setIfInBounds_self_of_lt hlt]
    rfl
  · rw [if_neg heq, get?, set, Array.getElem?_setIfInBounds_ne heq]
    exact get?_pad a index i

end SparseArray

end ShiftReduce
