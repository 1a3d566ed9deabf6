import Mathlib.Algebra.Group.Nat.Defs
import Mathlib.Data.List.Basic
import ShiftReduce.Proofs.Agreement
import ShiftReduce.RingBuffer.Lemmas

/-!
# Ring buffers are queues

A client of a ring buffer need not know of its slots and cursors. The items are a list that is
open at both ends and has room for one item less than there are slots. The same items may lie in
as many ways as there are slots, and none of this shows in an answer.

* `RingBuffer.perform` and `Deque.perform`: what the buffer and what the list does.
* `place_eq_land`, `distance_eq_land` and `before_eq_land`: what is reckoned with cursors on a ring
  of `2 ^ k` places is a sum or a difference of words under the mask `2 ^ k - 1`.
* `RingBuffer.Shows`: what a buffer shows of a list, and that its cursors are on the ring.
* `perform_shows`: an operation fails alike on both, or answers alike and leaves the same items.
* `ring_buffer_is_deque`: so does every sequence of operations on a new buffer.
-/

namespace ShiftReduce.RingBuffer

variable {α : Type}

/-! ## Operations -/

/-- What a client asks of a ring buffer. -/
inductive Operation (α : Type) where
  | pushBack (x : α)
  | pushFront (x : α)
  | popFront
  | peek
  | get (index : Nat)
  /-- Looks at an item that may be there and changes it. -/
  | getMut (index : Nat) (f : α → α)
  /-- Looks at an item that has to be there. -/
  | index (index : Nat)
  /-- Replaces an item that has to be there. -/
  | indexSet (index : Nat) (x : α)
  | clear
  | iter

/-- What a ring buffer answers. -/
inductive Answer (α : Type) where
  | done
  | item (x : α)
  | found (x : Option α)
  | items (xs : List α)

def perform (b : RingBuffer α) : Operation α → Checked (Answer α × RingBuffer α)
  | .pushBack x => do return (.done, ← b.pushBack x)
  | .pushFront x => do return (.done, ← b.pushFront x)
  | .popFront => do
    let (x, b) ← b.popFront
    return (.item x, b)
  | .peek => do return (.item (← b.peek), b)
  | .get index => .ok (.found (b.get? index), b)
  | .getMut index f =>
    match b.get? index with
    | some x => .ok (.found (some x), b.set index (f x))
    | none => .ok (.found none, b)
  | .index index => do return (.item (← b.get index), b)
  | .indexSet index x => do return (.done, ← b.put index x)
  | .clear => .ok (.done, b.clear)
  | .iter => .ok (.items b.toList, b)

def performAll (b : RingBuffer α) :
    List (Operation α) → Checked (List (Answer α) × RingBuffer α)
  | [] => .ok ([], b)
  | op :: ops => do
    let (answer, b) ← b.perform op
    let (answers, b) ← b.performAll ops
    return (answer :: answers, b)

/-! ## The list -/

/-- Performs an operation on a list with room for so many items. -/
def Deque.perform (room : Nat) (items : List α) : Operation α → Checked (Answer α × List α)
  | .pushBack x => if items.length = room then .error .ringFull else .ok (.done, items ++ [x])
  | .pushFront x => if items.length = room then .error .ringFull else .ok (.done, x :: items)
  | .popFront =>
    match items with
    | [] => .error .ringEmpty
    | x :: rest => .ok (.item x, rest)
  | .peek =>
    match items with
    | [] => .error .ringEmpty
    | x :: _ => .ok (.item x, items)
  | .get index => .ok (.found items[index]?, items)
  | .getMut index f => .ok (.found items[index]?, items.modify index f)
  | .index index =>
    match items[index]? with
    | none => .error (.ringIndex index items.length)
    | some x => .ok (.item x, items)
  | .indexSet index x =>
    if index < items.length then .ok (.done, items.set index x)
    else .error (.ringIndex index items.length)
  | .clear => .ok (.done, [])
  | .iter => .ok (.items items, items)

def Deque.performAll (room : Nat) (items : List α) :
    List (Operation α) → Checked (List (Answer α) × List α)
  | [] => .ok ([], items)
  | op :: ops => do
    let (answer, items) ← Deque.perform room items op
    let (answers, items) ← Deque.performAll room items ops
    return (answer :: answers, items)

/-! ## Words under a mask -/

/-- The difference of two words of `width` bits, which starts over below zero. -/
def wrappingSub (width a b : Nat) : Nat := (2 ^ width + a - b) % 2 ^ width

section

variable {head tail i k width : Nat}

/-- What a difference of words keeps under a mask: starting over adds a multiple of the size. -/
theorem wrappingSub_land (hw : k ≤ width) {a b : Nat} (ha : a < 2 ^ k) (hb : b < 2 ^ k) :
    wrappingSub width a b &&& (2 ^ k - 1) = if b ≤ a then a - b else 2 ^ k + a - b := by
  have hdvd : 2 ^ k ∣ 2 ^ width := Nat.pow_dvd_pow 2 hw
  obtain ⟨m, hm⟩ := hdvd
  have hpos := Nat.two_pow_pos width
  have hm0 : m ≠ 0 := by
    rintro rfl
    omega
  obtain ⟨n, rfl⟩ := Nat.exists_eq_succ_of_ne_zero hm0
  rw [Nat.mul_succ] at hm
  rw [wrappingSub, Nat.and_two_pow_sub_one_eq_mod, Nat.mod_mod_of_dvd _ (Nat.pow_dvd_pow 2 hw), hm]
  split
  · rw [show 2 ^ k * n + 2 ^ k + a - b = a - b + 2 ^ k + 2 ^ k * n by omega,
      Nat.add_mul_mod_self_left, Nat.add_mod_right, Nat.mod_eq_of_lt (by omega)]
  · rw [show 2 ^ k * n + 2 ^ k + a - b = 2 ^ k + a - b + 2 ^ k * n by omega,
      Nat.add_mul_mod_self_left, Nat.mod_eq_of_lt (by omega)]

theorem place_eq_land (hh : head < 2 ^ k) (hi : i < 2 ^ k) :
    place (2 ^ k) head i = (head + i) &&& (2 ^ k - 1) := by
  rw [place, Nat.and_two_pow_sub_one_eq_mod]
  split
  · rw [Nat.mod_eq_of_lt (by omega)]
  · rw [Nat.mod_eq_sub_mod (by omega), Nat.mod_eq_of_lt (by omega)]

theorem distance_eq_land (hw : k ≤ width) (hh : head < 2 ^ k) (ht : tail < 2 ^ k) :
    distance (2 ^ k) head tail = wrappingSub width tail head &&& (2 ^ k - 1) := by
  rw [wrappingSub_land hw ht hh]
  unfold distance; split <;> omega

theorem before_eq_land (hw : k ≤ width) (hk : 0 < k) (hh : head < 2 ^ k) :
    before (2 ^ k) head = wrappingSub width head 1 &&& (2 ^ k - 1) := by
  rw [wrappingSub_land hw hh (Nat.one_lt_two_pow (by omega))]
  unfold before; split <;> split <;> omega

end

/-! ## What a buffer shows -/

/-- The cursors of a buffer of `2 ^ k` slots are on the ring, and whatever is reckoned with them
is a sum or a difference of words under the mask `2 ^ k - 1`, which is on the ring again. The
width of a word is any that the number of slots fits into. -/
structure Masked (k : Nat) (b : RingBuffer α) : Prop where
  slots_eq : b.slots.size = 2 ^ k
  head_lt : b.head < 2 ^ k
  tail_lt : b.tail < 2 ^ k
  length_eq : ∀ width, k ≤ width → b.length = wrappingSub width b.tail b.head &&& (2 ^ k - 1)
  next_tail : place b.slots.size b.tail 1 = (b.tail + 1) &&& (2 ^ k - 1) ∧
    place b.slots.size b.tail 1 < 2 ^ k
  next_head : place b.slots.size b.head 1 = (b.head + 1) &&& (2 ^ k - 1) ∧
    place b.slots.size b.head 1 < 2 ^ k
  before_head : ∀ width, k ≤ width →
    before b.slots.size b.head = wrappingSub width b.head 1 &&& (2 ^ k - 1) ∧
      before b.slots.size b.head < 2 ^ k
  place_item : ∀ index, index < b.length →
    place b.slots.size b.head index = (b.head + index) &&& (2 ^ k - 1) ∧
      place b.slots.size b.head index < 2 ^ k

theorem masked_of_size {b : RingBuffer α} {k : Nat} (hk : 0 < k) (hsize : b.slots.size = 2 ^ k) :
    b.Masked k := by
  have hone : 1 < 2 ^ k := Nat.one_lt_two_pow (by omega)
  have hhead : b.head < 2 ^ k := hsize ▸ b.head_lt
  have htail : b.tail < 2 ^ k := hsize ▸ b.tail_lt
  have hlength : b.length < 2 ^ k := hsize ▸ b.length_lt_capacity
  -- All cursors are below a power of two, where wrapping is masking.
  constructor
  case slots_eq => exact hsize
  case head_lt => exact hhead
  case tail_lt => exact htail
  case length_eq =>
    intro width hwidth
    rw [length, hsize, distance_eq_land hwidth hhead htail]
  case next_tail =>
    rw [hsize]
    exact ⟨place_eq_land htail hone, place_lt htail hone⟩
  case next_head =>
    rw [hsize]
    exact ⟨place_eq_land hhead hone, place_lt hhead hone⟩
  case before_head =>
    intro width hwidth
    rw [hsize]
    exact ⟨before_eq_land hwidth hk hhead, before_lt hhead⟩
  case place_item =>
    intro index hindex
    have hlt : index < 2 ^ k := by omega
    rw [hsize]
    exact ⟨place_eq_land hhead hlt, place_lt hhead hlt⟩

/-- A buffer of `2 ^ k` slots shows a list of at most `2 ^ k - 1` items. -/
structure Shows (k : Nat) (items : List α) (b : RingBuffer α) : Prop where
  capacity_eq : b.capacity = 2 ^ k
  toList_eq : b.toList = items
  length_eq : b.length = items.length
  fits : items.length ≤ 2 ^ k - 1
  isEmpty_iff : b.isEmpty = true ↔ items = []
  isFull_iff : b.isFull = true ↔ items.length = 2 ^ k - 1
  masked : b.Masked k

theorem shows_of_toList {b : RingBuffer α} {k : Nat} {items : List α} (hk : 0 < k)
    (hcapacity : b.capacity = 2 ^ k) (hitems : b.toList = items) : b.Shows k items := by
  have hlength : b.length = items.length := by rw [← hitems, length_toList]
  have hlt := b.length_lt_capacity
  constructor
  case capacity_eq => exact hcapacity
  case toList_eq => exact hitems
  case length_eq => exact hlength
  case fits => omega
  case isEmpty_iff => rw [isEmpty_iff_toList, hitems]
  case isFull_iff =>
    rw [RingBuffer.isFull_iff, hcapacity, hlength]
    omega
  case masked => exact masked_of_size hk hcapacity

/-! ## Steps and runs -/

/-- Equal answers, and a buffer that shows the list. -/
def Answers (k : Nat) {β : Type} (r : β × RingBuffer α) (r' : β × List α) : Prop :=
  r.1 = r'.1 ∧ r.2.Shows k r'.2

variable {b : RingBuffer α} {k : Nat} {items : List α}

/-- What pushing at either end comes to. -/
theorem push_shows (hk : 0 < k) (h : b.Shows k items) {pushed : Checked (RingBuffer α)}
    {items' : List α}
    (herror : ∀ e, pushed = .error e ↔ b.length + 1 = b.capacity ∧ e = .ringFull)
    (hok : ∀ b', pushed = .ok b' → b'.capacity = b.capacity ∧ b'.toList = items') :
    Agree (Answers k) (do return ((.done : Answer α), ← pushed))
      (if items.length = 2 ^ k - 1 then .error .ringFull
        else .ok ((.done : Answer α), items')) := by
  have hfull := b.isFull_iff.symm.trans h.isFull_iff
  cases hpush : pushed with
  | error e =>
    obtain ⟨hlength, rfl⟩ := (herror e).mp hpush
    rw [if_pos (hfull.mp hlength)]
    exact .error _
  | ok b' =>
    have hroom : items.length ≠ 2 ^ k - 1 := by
      intro hlength
      have hfails := (herror .ringFull).mpr ⟨hfull.mpr hlength, rfl⟩
      rw [hpush] at hfails
      cases hfails
    rw [if_neg hroom]
    obtain ⟨hcapacity, hitems⟩ := hok b' hpush
    exact .ok ⟨rfl, shows_of_toList hk (hcapacity.trans h.capacity_eq) hitems⟩

theorem popFront_shows (hk : 0 < k) (h : b.Shows k items) :
    Agree (Answers k) (b.perform .popFront) (Deque.perform (2 ^ k - 1) items .popFront) := by
  simp only [perform, Deque.perform]
  cases hpop : b.popFront with
  | error e =>
    obtain ⟨hnil, rfl⟩ := (b.popFront_eq_error_iff e).mp hpop
    rw [← h.toList_eq, hnil]
    exact .error _
  | ok r =>
    obtain ⟨x, b'⟩ := r
    obtain ⟨hitems, hcapacity⟩ := popFront_eq_ok hpop
    rw [← h.toList_eq, hitems]
    exact .ok ⟨rfl, shows_of_toList hk (hcapacity.trans h.capacity_eq) rfl⟩

/-- What is asked of an item that has to be there. -/
theorem index_shows (h : b.Shows k items) (index : Nat) :
    Agree (Answers k) (b.perform (.index index))
      (Deque.perform (2 ^ k - 1) items (.index index)) := by
  simp only [perform, Deque.perform, RingBuffer.get, ← getElem?_toList, h.toList_eq, h.length_eq]
  cases items[index]? with
  | none => exact .error _
  | some x => exact .ok ⟨rfl, h⟩

theorem peek_shows (h : b.Shows k items) :
    Agree (Answers k) (b.perform .peek) (Deque.perform (2 ^ k - 1) items .peek) := by
  simp only [perform, Deque.perform, RingBuffer.peek, RingBuffer.get, ← getElem?_toList,
    h.toList_eq, h.isEmpty_iff]
  cases items with
  | nil => exact .error _
  | cons x rest => exact .ok ⟨rfl, h⟩

theorem getMut_shows (hk : 0 < k) (h : b.Shows k items) (index : Nat) (f : α → α) :
    Agree (Answers k) (b.perform (.getMut index f))
      (Deque.perform (2 ^ k - 1) items (.getMut index f)) := by
  simp only [perform, Deque.perform, ← getElem?_toList, h.toList_eq]
  cases hitem : items[index]? with
  | none =>
    rw [List.modify_eq_self (List.getElem?_eq_none_iff.mp hitem)]
    exact .ok ⟨rfl, h⟩
  | some x =>
    refine .ok ⟨rfl, shows_of_toList hk ?_ ?_⟩
    · rw [capacity_set, h.capacity_eq]
    · rw [toList_set, h.toList_eq, List.modify_eq_set_getElem?, hitem]
      rfl

theorem indexSet_shows (hk : 0 < k) (h : b.Shows k items) (index : Nat) (x : α) :
    Agree (Answers k) (b.perform (.indexSet index x))
      (Deque.perform (2 ^ k - 1) items (.indexSet index x)) := by
  simp only [perform, Deque.perform, put, h.length_eq]
  split
  · refine .ok ⟨rfl, shows_of_toList hk ?_ ?_⟩
    · rw [capacity_set, h.capacity_eq]
    · rw [toList_set, h.toList_eq]
  · exact .error _

/-- An operation fails alike on the buffer and on the list, or answers alike and leaves the same
items. -/
theorem perform_shows (hk : 0 < k) (h : b.Shows k items) (op : Operation α) :
    Agree (Answers k) (b.perform op) (Deque.perform (2 ^ k - 1) items op) := by
  cases op with
  | pushBack x =>
    refine push_shows hk h (b.pushBack_eq_error_iff x) fun b' hpush => ?_
    refine ⟨capacity_pushBack hpush, ?_⟩
    rw [toList_pushBack hpush, h.toList_eq]
  | pushFront x =>
    refine push_shows hk h (b.pushFront_eq_error_iff x) fun b' hpush => ?_
    refine ⟨capacity_pushFront hpush, ?_⟩
    rw [toList_pushFront hpush, h.toList_eq]
  | popFront => exact popFront_shows hk h
  | peek => exact peek_shows h
  | get index =>
    simp only [perform, Deque.perform, ← getElem?_toList, h.toList_eq]
    exact .ok ⟨rfl, h⟩
  | getMut index f => exact getMut_shows hk h index f
  | index index => exact index_shows h index
  | indexSet index x => exact indexSet_shows hk h index x
  | clear =>
    exact .ok ⟨rfl, shows_of_toList hk (b.capacity_clear.trans h.capacity_eq) b.toList_clear⟩
  | iter =>
    simp only [perform, Deque.perform, h.toList_eq]
    exact .ok ⟨rfl, h⟩

theorem performAll_shows (hk : 0 < k) (h : b.Shows k items) (ops : List (Operation α)) :
    Agree (Answers k) (b.performAll ops) (Deque.performAll (2 ^ k - 1) items ops) := by
  induction ops generalizing b items with
  | nil => exact .ok ⟨rfl, h⟩
  | cons op ops ih =>
    refine (perform_shows hk h op).bind ?_
    rintro ⟨answer, b'⟩ ⟨_, items'⟩ ⟨rfl, h'⟩
    refine (ih h').bind ?_
    rintro ⟨answers, b''⟩ ⟨_, items''⟩ ⟨rfl, h''⟩
    exact .ok ⟨rfl, h''⟩

/-- A new buffer of `2 ^ (k + 1)` slots is an empty queue for at most `2 ^ (k + 1) - 1` items.
Whatever is asked of it, it fails where the queue does and for the same reason, or it gives the
answers of the queue and shows the items that the queue holds. There is such a buffer unless its
slots do not fit one allocation. -/
theorem ring_buffer_is_deque (k slotBytes : Nat) (ops : List (Operation α)) :
    (ofCapacity (2 ^ (k + 1)) slotBytes : Checked (RingBuffer α)) =
      (if Allocatable (2 ^ (k + 1)) slotBytes then .ok (blank _ (Nat.two_pow_pos (k + 1)))
      else .error .capacityOverflow) ∧
    Agree (Answers (k + 1))
      ((blank (2 ^ (k + 1)) (Nat.two_pow_pos (k + 1)) : RingBuffer α).performAll ops)
      (Deque.performAll (2 ^ (k + 1) - 1) [] ops) := by
  have htwo : 2 ≤ 2 ^ (k + 1) := by
    have hpos := Nat.two_pow_pos k
    omega
  have hpower := (PowerOfTwo.isPower_iff _).mpr ⟨k + 1, rfl⟩
  have hcapacity : capacity (blank _ (Nat.two_pow_pos (k + 1)) : RingBuffer α) = 2 ^ (k + 1) :=
    Array.size_replicate
  exact ⟨ofCapacity_of_isPower htwo hpower slotBytes, performAll_shows (Nat.succ_pos k)
    (shows_of_toList (Nat.succ_pos k) hcapacity (toList_blank _ _)) ops⟩

end ShiftReduce.RingBuffer
