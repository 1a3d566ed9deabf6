import Mathlib.Algebra.Group.Nat.Defs
import ShiftReduce.Proofs.Stream.Pending

/-!
# Room in the buffer

How many tokens a stream holds back. `TokenStream.Fits` bounds their number from both
sides, in a buffer that has room for a window and for the tokens that recovery puts in
front of it. One lemma for each operation says that the operation is within its contract
and what becomes of the bounds:

* putting a token in front needs room, and taking one out needs a token;
* reading ahead adds a token only where the cursor is at the end of the buffer, so a
  buffer that is longer than the window does not grow (`Fits.nextBuffered`);
* reading in passing takes a token off, if there is one.

A stream is opened for every window whose buffer can be had (`TokenStream.Openable`), and for no
other (`TokenStream.ofScanner_eq`).
-/

namespace ShiftReduce

variable {V : Type}

namespace PowerOfTwo

/-- Rounding up stays below a power of two that is not exceeded. -/
theorem roundUp_le {n k : Nat} (h : n ≤ 2 ^ k) : roundUp n ≤ 2 ^ k := by
  unfold roundUp
  split
  · exact Nat.one_le_two_pow
  · rename_i hone
    rw [Nat.one_shiftLeft]
    apply Nat.pow_le_pow_right Nat.two_pos
    exact (Nat.log2_lt (by omega)).mpr (by omega)

/-- There is no power of two between two that follow each other. -/
theorem roundUp_lt_iff {n k : Nat} : roundUp n < 2 ^ (k + 1) ↔ n ≤ 2 ^ k := by
  constructor
  · intro h
    obtain ⟨j, hj⟩ := roundUp_isPowerOfTwo n
    rw [hj] at h
    have hjk : j ≤ k := Nat.le_of_lt_succ ((Nat.pow_lt_pow_iff_right Nat.one_lt_two).mp h)
    calc n ≤ roundUp n := le_roundUp n
      _ = 2 ^ j := hj
      _ ≤ 2 ^ k := Nat.pow_le_pow_right Nat.two_pos hjk
  · intro h
    exact Nat.lt_of_le_of_lt (roundUp_le h) (Nat.pow_lt_pow_succ Nat.one_lt_two)

end PowerOfTwo

namespace TokenStream

variable {s s' : TokenStream V} {w l n l' n' : Nat} {d : Delivery V}

/-- A stream holds back between `l` and `n` tokens, and its buffer has room for a window of
`w` tokens and a few more. -/
structure Fits (s : TokenStream V) (w l n : Nat) : Prop where
  window_eq : s.window = w
  room : w + 4 ≤ s.buffer.capacity
  least : l ≤ s.buffered.length
  most : s.buffered.length ≤ n

theorem length_buffered (s : TokenStream V) : s.buffered.length = s.buffer.length :=
  s.buffer.length_toList

namespace Fits

theorem mono (h : s.Fits w l n) (hl : l' ≤ l) (hn : n ≤ n') : s.Fits w l' n' :=
  ⟨h.window_eq, h.room, Nat.le_trans hl h.least, Nat.le_trans h.most hn⟩

/-- Another buffer of the same capacity. -/
theorem of_buffer (h : s.Fits w l n) {buffer : RingBuffer (Symbol V)}
    (hcapacity : buffer.capacity = s.buffer.capacity) (hl : l' ≤ buffer.length)
    (hn : buffer.length ≤ n') (scanner : Scanner V) (read : Nat) :
    ({ s with scanner, buffer, read } : TokenStream V).Fits w l' n' := by
  refine ⟨h.window_eq, ?_, ?_, ?_⟩
  · show w + 4 ≤ buffer.capacity
    rw [hcapacity]
    exact h.room
  · rw [length_buffered]
    exact hl
  · rw [length_buffered]
    exact hn

theorem least_length (h : s.Fits w l n) : l ≤ s.buffer.length := s.length_buffered ▸ h.least

theorem length_most (h : s.Fits w l n) : s.buffer.length ≤ n := s.length_buffered ▸ h.most

theorem setBuffering (h : s.Fits w l n) (buffering : Bool) :
    (s.setBuffering buffering).Fits w l n :=
  ⟨h.window_eq, h.room, h.least, h.most⟩

theorem modify (h : s.Fits w l n) (f : Symbol V → Symbol V) : (s.modify 0 f).Fits w l n := by
  unfold TokenStream.modify
  split
  · rename_i token _
    have hlength := s.buffer.length_set 0 (f token)
    exact h.of_buffer (RingBuffer.capacity_set _ _ _) (hlength ▸ h.least_length)
      (hlength ▸ h.length_most) _ _
  · exact h

theorem rewind (h : s.Fits w l n) (hmode : s.buffering = true) :
    s.rewind = .ok { s with read := 0 } ∧ { s with read := 0 }.Fits w l n := by
  refine ⟨?_, h.window_eq, h.room, h.least, h.most⟩
  simp [TokenStream.rewind, hmode]

/-- There is room for a token in front. -/
theorem insert (h : s.Fits w l n) (hn : n ≤ w + 2) (x : Symbol V) :
    ∃ s', s.insert 0 x = .ok s' ∧ s'.Fits w (l + 1) (n + 1) ∧ s'.buffering = s.buffering := by
  have hleast := h.least_length
  have hmost := h.length_most
  have hroom := h.room
  obtain ⟨buffer, hpush⟩ := RingBuffer.exists_pushFront (b := s.buffer) (by omega) x
  have hlength := RingBuffer.length_pushFront hpush
  refine ⟨{ s with buffer, read := if 0 < s.read then s.read + 1 else s.read }, ?_,
    h.of_buffer (RingBuffer.capacity_pushFront hpush) (by omega) (by omega) _ _, rfl⟩
  simp [TokenStream.insert, insertNear, hpush]

/-- A stream that holds a token back can give it up. -/
theorem remove (h : s.Fits w (l + 1) n) :
    ∃ x s', s.remove 0 = .ok (x, s') ∧ s'.Fits w l (n - 1) ∧ s'.buffering = s.buffering := by
  have hleast := h.least_length
  have hmost := h.length_most
  obtain ⟨x, buffer, hpop⟩ := RingBuffer.exists_popFront (b := s.buffer) (by omega)
  have hcapacity := (RingBuffer.popFront_eq_ok hpop).2
  have hlength := RingBuffer.length_popFront hpop
  refine ⟨x, { s with buffer, read := if 0 < s.read then s.read - 1 else s.read }, ?_,
    h.of_buffer hcapacity (by omega) (by omega) _ _, rfl⟩
  simp [TokenStream.remove, removeNear, hpop]

/-- Reading ahead, with the cursor below a bound of the tokens held back. -/
theorem nextBuffered (h : s.Fits w l n) (hmode : s.buffering = true)
    (hread : s.read ≤ s.buffered.length) (hlt : s.read < n) (hn : n ≤ w + 2) :
    ∃ d, s.nextBuffered = .ok d ∧ d.stream.Fits w l n := by
  have hleast := h.least_length
  have hmost := h.length_most
  have hroom := h.room
  rw [length_buffered] at hread
  rw [TokenStream.nextBuffered, if_neg (by simp [hmode])]
  by_cases hend : s.read = s.buffer.length
  -- At the end of the buffer there is room for what the scanner delivers.
  · rw [if_pos hend]
    dsimp only
    cases s.scanner.scan.result with
    | error fault => exact ⟨_, rfl, h.of_buffer rfl hleast hmost _ _⟩
    | ok token =>
      obtain ⟨buffer, hpush⟩ := RingBuffer.exists_pushBack (b := s.buffer) (by omega) token
      have hlength := RingBuffer.length_pushBack hpush
      have hgrown : l ≤ buffer.length := by omega
      have hbound : buffer.length ≤ n := by omega
      dsimp only
      rw [hpush]
      exact ⟨_, rfl, h.of_buffer (RingBuffer.capacity_pushBack hpush) hgrown hbound _ _⟩
  · rw [if_neg hend]
    have hsome := s.buffer.isSome_get? (show s.read < s.buffer.length by omega)
    obtain ⟨token, htoken⟩ := Option.isSome_iff_exists.mp hsome
    rw [RingBuffer.get, htoken]
    exact ⟨_, rfl, h.of_buffer rfl hleast hmost _ _⟩

/-- Reading in passing takes a token off, if one is held back. -/
theorem next (h : s.Fits w l n) (hnext : s.next = .ok d) : d.stream.Fits w 0 (n - 1) := by
  have hmost := h.length_most
  unfold TokenStream.next at hnext
  split at hnext
  · cases hnext
  · split at hnext
    · rename_i hempty
      cases hnext
      have hzero := s.buffer.isEmpty_iff.mp hempty
      exact h.of_buffer rfl (Nat.zero_le _) (by omega) _ _
    · obtain ⟨⟨token, buffer⟩, hpop, hd⟩ := bind_eq_ok.mp hnext
      cases hd
      have hcapacity := (RingBuffer.popFront_eq_ok hpop).2
      have hlength := RingBuffer.length_popFront hpop
      exact h.of_buffer hcapacity (Nat.zero_le _) (by omega) _ _

/-- There is room for a marker in front of the input. -/
theorem withLeading (h : s.Fits w l n) (hn : n ≤ w + 2) (x : Symbol V) :
    ∃ s', s.withLeading x = .ok s' ∧ s'.Fits w (l + 1) (n + 1) := by
  have hleast := h.least_length
  have hmost := h.length_most
  have hroom := h.room
  obtain ⟨buffer, hpush⟩ := RingBuffer.exists_pushBack (b := s.buffer) (by omega) x
  have hlength := RingBuffer.length_pushBack hpush
  refine ⟨{ s with buffer }, ?_,
    h.of_buffer (RingBuffer.capacity_pushBack hpush) (by omega) (by omega) _ _⟩
  simp [TokenStream.withLeading, hpush]

end Fits

/-! ## Opening a stream -/

/-- The slots of the buffer for a window. -/
def bufferSlots (window : Nat) : Nat := PowerOfTwo.roundUp (max window 1 + 4)

/-- Whether the buffer for a window can be had: its slots can be counted, and they fit one
allocation. -/
def Openable (window slotBytes : Nat) : Prop :=
  window + 4 ≤ 2 ^ 63 ∧ RingBuffer.Allocatable (bufferSlots window) slotBytes

instance (window slotBytes : Nat) : Decidable (Openable window slotBytes) :=
  inferInstanceAs (Decidable (_ ∧ _))

/-- What goes wrong where the buffer cannot be had. -/
def openingFault (window : Nat) : Breach :=
  if window + 4 ≤ 2 ^ 63 then .capacityOverflow else .addOverflow

theorem le_bufferSlots (window : Nat) : max window 1 + 4 ≤ bufferSlots window :=
  PowerOfTwo.le_roundUp _

theorem bufferCapacity_eq (window : Nat) :
    bufferCapacity (max window 1) =
      if window + 4 ≤ 2 ^ 63 then .ok (bufferSlots window) else .error .addOverflow := by
  have hcounted : bufferSlots window < UInt64.size ↔ window + 4 ≤ 2 ^ 63 := by
    rw [bufferSlots, show UInt64.size = 2 ^ (63 + 1) from rfl, PowerOfTwo.roundUp_lt_iff]
    omega
  rw [bufferCapacity]
  exact if_congr hcounted rfl rfl

/-- What opening a stream comes to. -/
theorem ofScanner_eq (scanner : Scanner V) (window slotBytes : Nat) :
    ofScanner scanner window slotBytes =
      if window + 4 ≤ 2 ^ 63 then
        if RingBuffer.Allocatable (bufferSlots window) slotBytes then
          .ok ⟨scanner, .blank (bufferSlots window) (Nat.zero_lt_of_lt (le_bufferSlots window)), 0,
            false, max window 1⟩
        else .error .capacityOverflow
      else .error .addOverflow := by
  have htwo : 2 ≤ bufferSlots window := Nat.le_trans (by omega) (le_bufferSlots window)
  have hpower : PowerOfTwo.isPower (bufferSlots window) = true :=
    (PowerOfTwo.isPower_iff _).mpr (PowerOfTwo.roundUp_isPowerOfTwo _)
  simp only [ofScanner, bufferCapacity_eq]
  split
  · simp only [ok_bind, RingBuffer.ofCapacity_of_isPower htwo hpower]
    split
    · rfl
    · rfl
  · rfl

/-- A stream can be opened if the buffer for its window can be had. -/
theorem exists_ofScanner (scanner : Scanner V) {window slotBytes : Nat}
    (h : Openable window slotBytes) : ∃ s, ofScanner scanner window slotBytes = .ok s := by
  rw [ofScanner_eq, if_pos h.1, if_pos h.2]
  exact ⟨_, rfl⟩

/-- Otherwise it cannot. -/
theorem ofScanner_of_not_openable (scanner : Scanner V) {window slotBytes : Nat}
    (h : ¬Openable window slotBytes) :
    ofScanner scanner window slotBytes = .error (openingFault window) := by
  rw [ofScanner_eq, openingFault]
  by_cases hcounted : window + 4 ≤ 2 ^ 63
  · have hlarge : ¬RingBuffer.Allocatable (bufferSlots window) slotBytes := fun hfits =>
      h ⟨hcounted, hfits⟩
    rw [if_pos hcounted, if_neg hlarge, if_pos hcounted]
  · rw [if_neg hcounted, if_neg hcounted]

/-- A stream that is opened holds nothing back. -/
theorem ofScanner_fits {scanner : Scanner V} {window slotBytes : Nat}
    (h : ofScanner scanner window slotBytes = .ok s) : s.Fits (max window 1) 0 0 := by
  obtain ⟨-, hwindow, -, hnil⟩ := ofScanner_spec h
  refine ⟨hwindow, ?_, Nat.zero_le _, by rw [hnil]; exact Nat.le_refl _⟩
  rw [ofScanner_eq] at h
  split at h
  · split at h
    · cases h
      exact Nat.le_trans (le_bufferSlots window) (Nat.le_of_eq Array.size_replicate.symm)
    · cases h
  · cases h

end TokenStream

end ShiftReduce
