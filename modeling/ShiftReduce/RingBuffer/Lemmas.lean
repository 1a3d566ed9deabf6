import ShiftReduce.RingBuffer.Basic

/-!
# Ring buffers as lists

Every operation of a ring buffer is described by what it does to the list of
items. The array and the cursors do not show: two buffers with the same items
answer alike.

* `getElem?_toList`: the items are found at their index.
* `toList_pushBack`, `toList_pushFront`: pushing adds the item at its end of the
  list; it fails exactly where there is no room (`pushBack_eq_error_iff`,
  `pushFront_eq_error_iff`).
* `popFront_eq_ok`: what is taken out is the head of the list and the rest stays;
  it fails exactly where there is no item (`popFront_eq_error_iff`).
* `toList_set`, `toList_clear`: replacing and dropping items.
-/

namespace ShiftReduce.RingBuffer

variable {α : Type}

/-! ## The items by their index -/

theorem isSome_get? (b : RingBuffer α) {i : Nat} (hi : i < b.length) : (b.get? i).isSome := by
  rw [get?, if_pos hi]
  exact b.occupied i hi

theorem get?_of_lt (b : RingBuffer α) {i : Nat} (hi : i < b.length) :
    b.get? i = (b.slots[place b.slots.size b.head i]?).join := by
  rw [get?, if_pos hi]

theorem get?_of_length_le (b : RingBuffer α) {i : Nat} (hi : b.length ≤ i) : b.get? i = none := by
  rw [get?, if_neg (by omega)]

theorem get?_eq_none_iff (b : RingBuffer α) {i : Nat} : b.get? i = none ↔ b.length ≤ i := by
  constructor
  · intro hnone
    by_cases hi : i < b.length
    · have hsome := b.isSome_get? hi
      rw [hnone] at hsome
      exact absurd hsome Bool.false_ne_true
    · omega
  · exact b.get?_of_length_le

/-- A list filled from a function that has a value at each index. -/
theorem getElem?_filterMap_range (f : Nat → Option α) (n i : Nat)
    (hf : ∀ j, j < n → (f j).isSome) :
    ((List.range n).filterMap f).length = n ∧
      ((List.range n).filterMap f)[i]? = if i < n then f i else none := by
  induction n with
  | zero => exact ⟨rfl, rfl⟩
  | succ n ih =>
    obtain ⟨hlen, hget⟩ := ih fun j hj => hf j (by omega)
    obtain ⟨x, hx⟩ := Option.isSome_iff_exists.1 (hf n (Nat.lt_succ_self n))
    have hone : [n].filterMap f = [x] := by simp only [List.filterMap_cons, hx, List.filterMap_nil]
    rw [List.range_succ, List.filterMap_append, hone]
    refine ⟨by rw [List.length_append, hlen]; rfl, ?_⟩
    by_cases hi : i < n
    · rw [List.getElem?_append_left (by omega), hget, if_pos hi, if_pos (by omega)]
    · rw [List.getElem?_append_right (by omega), hlen]
      by_cases heq : i = n
      · subst heq
        rw [if_pos (by omega), Nat.sub_self, hx]
        rfl
      · rw [if_neg (by omega), List.getElem?_eq_none (by simp only [List.length_singleton]; omega)]

theorem length_toList (b : RingBuffer α) : b.toList.length = b.length :=
  (getElem?_filterMap_range b.get? b.length 0 fun _ hj => b.isSome_get? hj).1

theorem getElem?_toList (b : RingBuffer α) (i : Nat) : b.toList[i]? = b.get? i := by
  rw [toList, (getElem?_filterMap_range b.get? b.length i fun _ hj => b.isSome_get? hj).2]
  split
  · rfl
  · rename_i hi
    rw [b.get?_of_length_le (by omega)]

/-- A list is that of a buffer if it has the same items at each index. -/
theorem toList_eq_of_get? {b : RingBuffer α} {l : List α} (h : ∀ i, b.get? i = l[i]?) :
    b.toList = l :=
  List.ext_getElem? fun i => by rw [getElem?_toList, h]

theorem isEmpty_iff_toList (b : RingBuffer α) : b.isEmpty = true ↔ b.toList = [] := by
  rw [isEmpty_iff, ← length_toList, List.length_eq_zero_iff]

/-! ## New buffers -/

theorem toList_blank (n : Nat) (h : 0 < n) : (blank n h : RingBuffer α).toList = [] := by
  rw [← isEmpty_iff_toList, isEmpty_iff]
  exact distance_self _ _

/-- A power of two is a capacity, if its slots fit one allocation. -/
theorem ofCapacity_of_isPower {n : Nat} (hn : 2 ≤ n) (hpower : PowerOfTwo.isPower n = true)
    (slotBytes : Nat) :
    (ofCapacity n slotBytes : Checked (RingBuffer α)) =
      if Allocatable n slotBytes then .ok (blank n (Nat.lt_of_lt_of_le Nat.two_pos hn))
      else .error .capacityOverflow := by
  rw [ofCapacity, dif_pos ⟨hn, hpower⟩]

theorem ofCapacity_eq_ok {n slotBytes : Nat} {b : RingBuffer α}
    (h : ofCapacity n slotBytes = .ok b) : b.toList = [] ∧ b.capacity = n := by
  unfold ofCapacity at h
  split at h
  · split at h
    · cases h
      exact ⟨toList_blank _ _, Array.size_replicate⟩
    · cases h
  · cases h

/-! ## Pushing -/

theorem length_pushBack {b b' : RingBuffer α} {x : α} (h : b.pushBack x = .ok b') :
    b'.length = b.length + 1 := by
  unfold pushBack at h
  split at h
  · cases h
  · rename_i hfull
    cases h
    simp only [length, Array.size_setIfInBounds]
    exact distance_next_tail b.tail_lt (b.room hfull)

theorem length_pushFront {b b' : RingBuffer α} {x : α} (h : b.pushFront x = .ok b') :
    b'.length = b.length + 1 := by
  unfold pushFront at h
  split at h
  · cases h
  · rename_i hfull
    cases h
    simp only [length, Array.size_setIfInBounds]
    exact distance_before_head b.head_lt b.tail_lt (b.room hfull)

theorem get?_pushBack {b b' : RingBuffer α} {x : α} (h : b.pushBack x = .ok b') (i : Nat) :
    b'.get? i = (b.toList ++ [x])[i]? := by
  have hlen := length_pushBack h
  have hold := b.length_toList
  unfold pushBack at h
  split at h
  · cases h
  · rename_i hfull
    have hroom := b.room hfull
    -- The slot at the tail is free, so no item is overwritten.
    by_cases hi : i < b'.length
    · rw [get?_of_lt _ hi]
      rw [hlen] at hi
      cases h
      simp only [Array.size_setIfInBounds]
      by_cases heq : i = b.length
      · rw [List.getElem?_append_right (by omega), heq, hold, Nat.sub_self]
        unfold length
        rw [place_distance b.head_lt b.tail_lt, Array.getElem?_setIfInBounds_self_of_lt b.tail_lt]
        rfl
      · have hne : b.tail ≠ place b.slots.size b.head i := by
          rw [← place_distance b.head_lt b.tail_lt]
          unfold length at heq hi
          exact place_ne b.head (by omega) (by omega) (by omega)
        rw [List.getElem?_append_left (by omega), getElem?_toList, get?_of_lt _ (by omega),
          Array.getElem?_setIfInBounds_ne hne]
    · rw [get?_of_length_le _ (by omega), List.getElem?_eq_none]
      rw [List.length_append, List.length_singleton]
      omega

theorem get?_pushFront {b b' : RingBuffer α} {x : α} (h : b.pushFront x = .ok b') (i : Nat) :
    b'.get? i = (x :: b.toList)[i]? := by
  have hlen := length_pushFront h
  have hold := b.length_toList
  unfold pushFront at h
  split at h
  · cases h
  · rename_i hfull
    have hroom := b.room hfull
    have hbefore := before_lt b.head_lt
    -- The slot before the head is free, so no item is overwritten.
    by_cases hi : i < b'.length
    · rw [get?_of_lt _ hi]
      rw [hlen] at hi
      cases h
      simp only [Array.size_setIfInBounds]
      cases i with
      | zero =>
        rw [place_zero hbefore, Array.getElem?_setIfInBounds_self_of_lt hbefore]
        rfl
      | succ i =>
        have hsize : i + 1 < b.slots.size := by unfold length at hi; omega
        have hne := place_ne (before b.slots.size b.head) (Nat.zero_lt_of_lt hsize) hsize
          (by omega)
        rw [place_zero hbefore] at hne
        rw [List.getElem?_cons_succ, getElem?_toList, get?_of_lt _ (by omega),
          Array.getElem?_setIfInBounds_ne hne, place_before b.head_lt hsize]
    · rw [get?_of_length_le _ (by omega), List.getElem?_eq_none]
      rw [List.length_cons]
      omega

theorem toList_pushBack {b b' : RingBuffer α} {x : α} (h : b.pushBack x = .ok b') :
    b'.toList = b.toList ++ [x] :=
  toList_eq_of_get? (get?_pushBack h)

theorem toList_pushFront {b b' : RingBuffer α} {x : α} (h : b.pushFront x = .ok b') :
    b'.toList = x :: b.toList :=
  toList_eq_of_get? (get?_pushFront h)

theorem capacity_pushBack {b b' : RingBuffer α} {x : α} (h : b.pushBack x = .ok b') :
    b'.capacity = b.capacity := by
  unfold pushBack at h
  split at h
  · cases h
  · cases h
    exact Array.size_setIfInBounds

theorem capacity_pushFront {b b' : RingBuffer α} {x : α} (h : b.pushFront x = .ok b') :
    b'.capacity = b.capacity := by
  unfold pushFront at h
  split at h
  · cases h
  · cases h
    exact Array.size_setIfInBounds

theorem pushBack_eq_error_iff (b : RingBuffer α) (x : α) (e : Breach) :
    b.pushBack x = .error e ↔ b.length + 1 = b.capacity ∧ e = .ringFull := by
  rw [pushBack, ← isFull_iff]
  split
  · rename_i hfull
    exact ⟨fun h => ⟨hfull, (Except.error.inj h).symm⟩, fun h => by rw [h.2]⟩
  · rename_i hroom
    refine ⟨fun h => ?_, fun h => absurd h.1 hroom⟩
    cases h

theorem pushFront_eq_error_iff (b : RingBuffer α) (x : α) (e : Breach) :
    b.pushFront x = .error e ↔ b.length + 1 = b.capacity ∧ e = .ringFull := by
  rw [pushFront, ← isFull_iff]
  split
  · rename_i hfull
    exact ⟨fun h => ⟨hfull, (Except.error.inj h).symm⟩, fun h => by rw [h.2]⟩
  · rename_i hroom
    refine ⟨fun h => ?_, fun h => absurd h.1 hroom⟩
    cases h

/-- Pushing succeeds where there is room. -/
theorem exists_pushBack {b : RingBuffer α} (h : b.length + 1 < b.capacity) (x : α) :
    ∃ b', b.pushBack x = .ok b' := by
  cases hp : b.pushBack x with
  | ok b' => exact ⟨b', rfl⟩
  | error e =>
    have hfull := (pushBack_eq_error_iff b x e).1 hp
    omega

/-- Pushing succeeds where there is room. -/
theorem exists_pushFront {b : RingBuffer α} (h : b.length + 1 < b.capacity) (x : α) :
    ∃ b', b.pushFront x = .ok b' := by
  cases hp : b.pushFront x with
  | ok b' => exact ⟨b', rfl⟩
  | error e =>
    have hfull := (pushFront_eq_error_iff b x e).1 hp
    omega

/-! ## Taking out and replacing -/

theorem get?_tailOf (b : RingBuffer α) (h : 0 < b.length) (i : Nat) :
    (b.tailOf h).get? i = b.get? (i + 1) := by
  have hlen := b.length_tailOf h
  have hlt := b.length_lt_capacity
  unfold capacity at hlt
  by_cases hi : i + 1 < b.length
  · have hsize : i + 1 < b.slots.size := by omega
    have hne := place_ne b.head (Nat.zero_lt_of_lt hsize) hsize (by omega)
    rw [place_zero b.head_lt] at hne
    rw [get?_of_lt _ (by omega), get?_of_lt _ hi]
    simp only [tailOf, Array.size_setIfInBounds]
    rw [place_next b.head_lt hsize, Array.getElem?_setIfInBounds_ne hne]
  · rw [get?_of_length_le _ (by omega), get?_of_length_le _ (by omega)]

theorem popFront_eq_ok {b b' : RingBuffer α} {x : α} (h : b.popFront = .ok (x, b')) :
    b.toList = x :: b'.toList ∧ b'.capacity = b.capacity := by
  unfold popFront at h
  split at h
  · rename_i hlen
    split at h
    · rename_i y hy
      cases h
      refine ⟨List.ext_getElem? fun i => ?_, Array.size_setIfInBounds⟩
      cases i with
      | zero => rw [getElem?_toList, hy]; rfl
      | succ i => rw [getElem?_toList, List.getElem?_cons_succ, getElem?_toList, get?_tailOf]
    · cases h
  · cases h

theorem length_popFront {b b' : RingBuffer α} {x : α} (h : b.popFront = .ok (x, b')) :
    b'.length + 1 = b.length := by
  rw [← b.length_toList, (popFront_eq_ok h).1, List.length_cons, length_toList]

theorem popFront_eq_error_iff (b : RingBuffer α) (e : Breach) :
    b.popFront = .error e ↔ b.toList = [] ∧ e = .ringEmpty := by
  rw [← List.length_eq_zero_iff, length_toList, popFront]
  split
  · rename_i hlen
    split
    · refine ⟨fun h => ?_, fun h => absurd h.1 (by omega)⟩
      cases h
    · rename_i hnone
      have hle := b.get?_eq_none_iff.1 hnone
      omega
  · rename_i hlen
    exact ⟨fun h => ⟨by omega, (Except.error.inj h).symm⟩, fun h => by rw [h.2]⟩

/-- Taking out succeeds where there is an item. -/
theorem exists_popFront {b : RingBuffer α} (h : 0 < b.length) :
    ∃ x b', b.popFront = .ok (x, b') := by
  cases hp : b.popFront with
  | ok r => exact ⟨r.1, r.2, rfl⟩
  | error e =>
    have hnil := ((popFront_eq_error_iff b e).1 hp).1
    rw [← List.length_eq_zero_iff, length_toList] at hnil
    omega

theorem length_set (b : RingBuffer α) (index : Nat) (x : α) :
    (b.set index x).length = b.length := by
  unfold set
  split
  · simp only [length, Array.size_setIfInBounds]
  · rfl

theorem capacity_set (b : RingBuffer α) (index : Nat) (x : α) :
    (b.set index x).capacity = b.capacity := by
  unfold set
  split
  · exact Array.size_setIfInBounds
  · rfl

theorem get?_set (b : RingBuffer α) (index : Nat) (x : α) (i : Nat) :
    (b.set index x).get? i =
      if index = i then if index < b.length then some x else none else b.get? i := by
  have hset := b.length_set index x
  by_cases hindex : index < b.length
  · by_cases hi : i < b.length
    · rw [get?_of_lt _ (by omega), get?_of_lt _ hi]
      have hlt := b.length_lt_capacity
      unfold capacity at hlt
      unfold set
      rw [if_pos hindex]
      simp only [Array.size_setIfInBounds]
      -- Different indices below the length have different slots.
      by_cases heq : index = i
      · subst heq
        rw [if_pos rfl, if_pos hindex,
          Array.getElem?_setIfInBounds_self_of_lt (place_lt b.head_lt (by omega))]
        rfl
      · rw [if_neg heq,
          Array.getElem?_setIfInBounds_ne (place_ne b.head (by omega) (by omega) heq)]
    · rw [get?_of_length_le _ (by omega), get?_of_length_le _ (by omega), if_neg (by omega)]
  · have hsame : b.set index x = b := by rw [set, if_neg hindex]
    rw [hsame]
    split
    · rename_i heq
      rw [b.get?_of_length_le (by omega)]
    · rfl

theorem toList_set (b : RingBuffer α) (index : Nat) (x : α) :
    (b.set index x).toList = b.toList.set index x := by
  refine toList_eq_of_get? fun i => ?_
  rw [get?_set, List.getElem?_set, getElem?_toList, length_toList]

theorem capacity_tailOf (b : RingBuffer α) (h : 0 < b.length) :
    (b.tailOf h).capacity = b.capacity := Array.size_setIfInBounds

theorem toList_clear (b : RingBuffer α) : b.clear.toList = [] := by
  induction b using clear.induct with
  | case1 b h ih => rwa [clear, dif_pos h]
  | case2 b h =>
    rw [clear, dif_neg h, ← List.length_eq_zero_iff, length_toList]
    omega

theorem capacity_clear (b : RingBuffer α) : b.clear.capacity = b.capacity := by
  induction b using clear.induct with
  | case1 b h ih => rw [clear, dif_pos h, ih, capacity_tailOf]
  | case2 b h => rw [clear, dif_neg h]

end ShiftReduce.RingBuffer
