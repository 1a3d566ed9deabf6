import ShiftReduce.Proofs.Stream.Room
import ShiftReduce.Proofs.Stream.Tape

/-!
# Reading ahead

A stream in buffering mode delivers what is held back first, and only behind that it asks its
scanner. Reading ahead keeps the pending tokens; it makes the buffer longer only if the cursor
goes past its end, and there is room for that up to the window.

* `Scanner.Serves`: requests that are answered with tokens.
* `ReadAhead`: what reading ahead leaves of a stream.
* `nextBuffered_of_held`: what is held back comes again, without the scanner.
* `spacious_of_performAll`: the buffer of a stream has room for its window, whatever is done to it.
-/

namespace ShiftReduce

variable {V : Type}

/-- The next requests to a scanner are all answered with tokens, maybe behind lexical faults. -/
def Scanner.Serves : Nat → Scanner V → Prop
  | 0, _ => True
  | n + 1, s => (∃ token, s.scan.result = .ok token) ∧ Serves n s.scan.scanner

theorem Scanner.Serves.mono {s : Scanner V} {m n : Nat} (h : s.Serves n) (hle : m ≤ n) :
    s.Serves m := by
  induction n generalizing m s with
  | zero =>
    obtain rfl : m = 0 := by omega
    trivial
  | succ n ih =>
    cases m with
    | zero => trivial
    | succ m => exact ⟨h.1, ih h.2 (by omega)⟩

namespace TokenStream

variable {s s' s'' : TokenStream V} {d : Delivery V} {op : Operation V} {answer : Answer V}
  {token : Symbol V} {offset : Nat} {x : Symbol V}

/-! ## What reading ahead leaves -/

/-- A stream after some tokens have been read ahead. -/
structure ReadAhead (s s' : TokenStream V) : Prop where
  buffering : s'.buffering = true
  window_eq : s'.window = s.window
  capacity_eq : s'.buffer.capacity = s.buffer.capacity
  pending_eq : s'.pending = s.pending
  grows : s.buffered <+: s'.buffered
  read_le : s.read ≤ s'.read
  cursor_le : s'.read ≤ s'.buffered.length
  length_le : s'.buffered.length ≤ max s.buffered.length s'.read

namespace ReadAhead

theorem refl (hmode : s.buffering = true) (hread : s.read ≤ s.buffered.length) : s.ReadAhead s :=
  ⟨hmode, rfl, rfl, rfl, List.prefix_rfl, Nat.le_refl _, hread, Nat.le_max_left _ _⟩

theorem trans (h : s.ReadAhead s') (h' : s'.ReadAhead s'') : s.ReadAhead s'' := by
  have hread := h'.read_le
  have hlength := h.length_le
  have hlength' := h'.length_le
  exact ⟨h'.buffering, h'.window_eq.trans h.window_eq, h'.capacity_eq.trans h.capacity_eq,
    h'.pending_eq.trans h.pending_eq, h.grows.trans h'.grows, Nat.le_trans h.read_le hread,
    h'.cursor_le, by omega⟩

end ReadAhead

/-- A read moves the cursor behind a token, or leaves everything where there was a fault. -/
theorem readAhead_nextBuffered (h : s.nextBuffered = .ok d) (hread : s.read ≤ s.buffered.length) :
    s.ReadAhead d.stream ∧ d.stream.read ≤ s.read + 1 := by
  obtain ⟨hmode, hwindow, hpending, hgrows, -⟩ := nextBuffered_spec h hread
  unfold nextBuffered at h
  split at h
  · cases h
  · split at h
    · rename_i hend
      dsimp only at h
      split at h
      -- The token of the scanner is put behind all that is held back.
      · obtain ⟨buffer, hpush, hd⟩ := bind_eq_ok.mp h
        cases hd
        have hlong : buffer.toList.length = s.read + 1 := by
          rw [RingBuffer.length_toList, RingBuffer.length_pushBack hpush, ← hend]
        exact ⟨⟨hmode, hwindow, RingBuffer.capacity_pushBack hpush, hpending, hgrows,
          Nat.le_succ _, Nat.le_of_eq hlong.symm,
          Nat.le_trans (Nat.le_of_eq hlong) (Nat.le_max_right _ _)⟩, Nat.le_refl _⟩
      · cases h
        exact ⟨⟨hmode, hwindow, rfl, hpending, hgrows, Nat.le_refl _, hread,
          Nat.le_max_left _ _⟩, Nat.le_succ _⟩
    · rename_i hinside
      obtain ⟨found, -, hd⟩ := bind_eq_ok.mp h
      cases hd
      rw [← length_buffered] at hinside
      exact ⟨⟨hmode, hwindow, rfl, hpending, hgrows, Nat.le_succ _,
        Nat.lt_of_le_of_ne hread hinside, Nat.le_max_left _ _⟩, Nat.le_refl _⟩

/-- A token that is delivered is held back, in front of the cursor. -/
theorem held_of_nextBuffered (h : s.nextBuffered = .ok d) (hread : s.read ≤ s.buffered.length)
    (htoken : d.result = .ok token) :
    d.stream.buffered[s.read]? = some token ∧ d.stream.read = s.read + 1 := by
  obtain ⟨-, -, hpending, -, hresult⟩ := nextBuffered_spec h hread
  obtain ⟨htok, hmoved, hlong⟩ := hresult token htoken
  have hsome := List.getElem?_eq_getElem hlong
  have hget := get_pending_of_lt hsome
  rw [hpending, ← htok] at hget
  exact ⟨hget ▸ hsome, hmoved⟩

/-- Only within the buffer, or right behind it, something is delivered. -/
theorem read_le_of_nextBuffered (h : s.nextBuffered = .ok d) : s.read ≤ s.buffered.length := by
  unfold nextBuffered at h
  split at h
  · cases h
  · split at h
    · rename_i hend
      rw [length_buffered, hend]
    · obtain ⟨token, hget, -⟩ := bind_eq_ok.mp h
      by_contra hbeyond
      rw [length_buffered, Nat.not_le] at hbeyond
      rw [RingBuffer.get, (s.buffer.get?_eq_none_iff).mpr (Nat.le_of_lt hbeyond)] at hget
      cases hget

/-- What is held back is delivered without the scanner. -/
theorem nextBuffered_of_held (hmode : s.buffering = true) (h : s.buffered[s.read]? = some token) :
    s.nextBuffered = .ok ⟨[], .ok token, { s with read := s.read + 1 }⟩ := by
  have hlt : s.read < s.buffer.length := by
    rw [← length_buffered]
    exact (List.getElem?_eq_some_iff.mp h).1
  rw [buffered, RingBuffer.getElem?_toList] at h
  rw [nextBuffered, if_neg (by simp [hmode]), if_neg (by omega), RingBuffer.get, h]
  rfl

/-- There is room for what is read ahead if the cursor stays within the buffer. -/
theorem exists_nextBuffered_of_lt (hmode : s.buffering = true)
    (hread : s.read ≤ s.buffered.length) (hroom : s.read + 1 < s.buffer.capacity) :
    ∃ d, s.nextBuffered = .ok d := by
  by_cases hend : s.read = s.buffered.length
  · refine exists_nextBuffered ?_ hmode hread
    rw [HasRoom, ← length_buffered, ← hend]
    exact hroom
  · have hsome := List.getElem?_eq_getElem (Nat.lt_of_le_of_ne hread hend)
    exact ⟨_, nextBuffered_of_held hmode hsome⟩

/-- A scanner that serves a request delivers a token, and it serves the others afterwards. -/
theorem serves_nextBuffered {n : Nat} (h : s.nextBuffered = .ok d)
    (hserves : s.scanner.Serves (n + 1)) :
    (∃ token, d.result = .ok token) ∧ d.stream.scanner.Serves n := by
  cases nextBuffered_from h with
  | buffer _ hresult hscanner =>
    rw [hscanner]
    exact ⟨⟨_, hresult⟩, hserves.mono (Nat.le_succ n)⟩
  | scanner _ hresult hscanner =>
    rw [hresult, hscanner]
    exact hserves

/-! ## Room for the window -/

/-- A stream whose buffer has room for its window. -/
structure Spacious (s : TokenStream V) : Prop where
  window_pos : 1 ≤ s.window
  room : s.window < s.buffer.capacity

/-- A stream of the same window and with the same room. -/
theorem Spacious.of_eq (h : s.Spacious) (hwindow : s'.window = s.window)
    (hcapacity : s'.buffer.capacity = s.buffer.capacity) : s'.Spacious := by
  constructor
  · rw [hwindow]
    exact h.window_pos
  · rw [hwindow, hcapacity]
    exact h.room

theorem capacity_insertNear {α : Type} {buffer buffer' : RingBuffer α} {x : α}
    (h : insertNear buffer x offset = .ok buffer') : buffer'.capacity = buffer.capacity := by
  match offset with
  | 0 => exact RingBuffer.capacity_pushFront h
  | 1 =>
    obtain ⟨⟨first, rest⟩, hpop, h⟩ := bind_eq_ok.mp h
    obtain ⟨second, hsecond, h⟩ := bind_eq_ok.mp h
    exact (RingBuffer.capacity_pushFront h).trans
      ((RingBuffer.capacity_pushFront hsecond).trans (RingBuffer.popFront_eq_ok hpop).2)
  | offset + 2 => cases h

theorem capacity_removeNear {α : Type} {buffer buffer' : RingBuffer α} {x : α}
    (h : removeNear buffer offset = .ok (x, buffer')) : buffer'.capacity = buffer.capacity := by
  match offset with
  | 0 => exact (RingBuffer.popFront_eq_ok h).2
  | 1 =>
    obtain ⟨⟨first, rest⟩, hpop, h⟩ := bind_eq_ok.mp h
    obtain ⟨⟨second, rest'⟩, hpop', h⟩ := bind_eq_ok.mp h
    obtain ⟨buffer, hpush, h⟩ := bind_eq_ok.mp h
    cases h
    exact (RingBuffer.capacity_pushFront hpush).trans
      ((RingBuffer.popFront_eq_ok hpop').2.trans (RingBuffer.popFront_eq_ok hpop).2)
  | offset + 2 => cases h

theorem capacity_next (h : s.next = .ok d) :
    d.stream.window = s.window ∧ d.stream.buffer.capacity = s.buffer.capacity := by
  unfold next at h
  split at h
  · cases h
  · split at h
    · cases h
      exact ⟨rfl, rfl⟩
    · obtain ⟨⟨first, buffer⟩, hpop, hd⟩ := bind_eq_ok.mp h
      cases hd
      exact ⟨rfl, (RingBuffer.popFront_eq_ok hpop).2⟩

/-- No operation changes the window or the room. -/
theorem Spacious.perform (hs : s.Spacious) (hsound : s.tape.Sound)
    (h : s.perform op = .ok (answer, s')) : s'.Spacious := by
  -- No operation changes the window or the number of slots.
  cases op with
  | withLeading marker =>
    obtain ⟨found, hfound, hdone⟩ := bind_eq_ok.mp h
    cases hdone
    obtain ⟨buffer, hpush, hdone⟩ := bind_eq_ok.mp hfound
    cases hdone
    exact hs.of_eq rfl (RingBuffer.capacity_pushBack hpush)
  | next =>
    obtain ⟨d, hd, hdone⟩ := bind_eq_ok.mp h
    cases hdone
    obtain ⟨hwindow, hcapacity⟩ := capacity_next hd
    exact hs.of_eq hwindow hcapacity
  | nextBuffered =>
    obtain ⟨d, hd, hdone⟩ := bind_eq_ok.mp h
    cases hdone
    obtain ⟨hahead, -⟩ := readAhead_nextBuffered hd hsound.cursor_le
    exact hs.of_eq hahead.window_eq hahead.capacity_eq
  | setBuffering buffering =>
    cases h
    exact hs.of_eq rfl rfl
  | rewind =>
    obtain ⟨found, hfound, hdone⟩ := bind_eq_ok.mp h
    cases hdone
    obtain ⟨-, rfl⟩ := rewind_eq_ok.mp hfound
    exact hs.of_eq rfl rfl
  | insert offset token =>
    obtain ⟨found, hfound, hdone⟩ := bind_eq_ok.mp h
    cases hdone
    obtain ⟨buffer, hinsert, hdone⟩ := bind_eq_ok.mp hfound
    cases hdone
    exact hs.of_eq rfl (capacity_insertNear hinsert)
  | remove offset =>
    obtain ⟨⟨token, found⟩, hfound, hdone⟩ := bind_eq_ok.mp h
    cases hdone
    obtain ⟨⟨removed, buffer⟩, hremove, hdone⟩ := bind_eq_ok.mp hfound
    cases hdone
    exact hs.of_eq rfl (capacity_removeNear hremove)
  | peek offset =>
    cases h
    exact hs
  | modify offset f =>
    cases h
    unfold modify
    split
    · exact hs.of_eq rfl (RingBuffer.capacity_set _ _ _)
    · exact hs

/-- The buffer of a stream has room for its window, whatever has been done to the stream. -/
theorem spacious_of_performAll {ops : List (Operation V)} {answers : List (Answer V)}
    (hs : s.Spacious) (hsound : s.tape.Sound) (h : s.performAll ops = .ok (answers, s')) :
    s'.Spacious := by
  induction ops generalizing s answers with
  | nil =>
    cases h
    exact hs
  | cons op ops ih =>
    obtain ⟨⟨answer, s₁⟩, hop, h⟩ := bind_eq_ok.mp h
    obtain ⟨⟨rest, s₂⟩, hops, h⟩ := bind_eq_ok.mp h
    cases h
    obtain ⟨pulled, -, hstep⟩ := step_of_perform hop hsound
    exact ih (hs.perform hsound hop) (hstep.sound hsound) hops

theorem spacious_ofScanner {scanner : Scanner V} {window slotBytes : Nat}
    (h : ofScanner scanner window slotBytes = .ok s) : s.Spacious := by
  obtain ⟨hwindow, hroom, -, -⟩ := ofScanner_fits h
  exact ⟨by omega, by omega⟩

end TokenStream

end ShiftReduce
