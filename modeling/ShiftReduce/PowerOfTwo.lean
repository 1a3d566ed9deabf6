/-!
# Powers of two

Sizes of storage are rounded up to powers of two. `roundUp n` is the least
power of two that is at least `n`:

* it is a power of two (`roundUp_isPowerOfTwo`) and not below `n`
  (`le_roundUp`);
* powers of two are left alone (`roundUp_of_isPowerOfTwo`), and only they are
  (`isPower_iff`).
-/

namespace ShiftReduce.PowerOfTwo

/-- The least power of two that is at least `n`. -/
def roundUp (n : Nat) : Nat :=
  if n ≤ 1 then 1 else 1 <<< ((n - 1).log2 + 1)

/-- Whether a number is its own rounding. -/
def isPower (n : Nat) : Bool := roundUp n == n

theorem roundUp_isPowerOfTwo (n : Nat) : (roundUp n).isPowerOfTwo := by
  unfold roundUp
  split
  · exact ⟨0, rfl⟩
  · exact ⟨_, Nat.one_shiftLeft _⟩

theorem le_roundUp (n : Nat) : n ≤ roundUp n := by
  unfold roundUp
  split
  · assumption
  · have hlog := @Nat.lt_log2_self (n - 1)
    rw [Nat.one_shiftLeft]
    omega

theorem roundUp_of_isPowerOfTwo {n : Nat} (h : n.isPowerOfTwo) : roundUp n = n := by
  obtain ⟨k, rfl⟩ := h
  unfold roundUp
  have hpos := @Nat.one_le_two_pow k
  split
  · omega
  · rename_i hone
    cases k with
    | zero => simp at hone
    | succ j =>
      have hj := @Nat.one_le_two_pow j
      have hlog : (2 ^ (j + 1) - 1).log2 = j :=
        (Nat.log2_eq_iff (by omega)).2 ⟨by omega, by omega⟩
      rw [hlog, Nat.one_shiftLeft]

theorem isPower_iff (n : Nat) : isPower n = true ↔ n.isPowerOfTwo := by
  rw [isPower, beq_iff_eq]
  constructor
  · intro h
    rw [← h]
    exact roundUp_isPowerOfTwo n
  · exact roundUp_of_isPowerOfTwo

end ShiftReduce.PowerOfTwo
