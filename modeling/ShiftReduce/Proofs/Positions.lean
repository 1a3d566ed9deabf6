import ShiftReduce.Position

/-!
# The order of positions

Positions are ordered by their words. Since the line stands above the column in a word, this is
the lexicographic order of the coordinates, after each has been clamped to what a word can hold
(`ofLineColumn_le_iff`).

Clamping a coordinate keeps the order in it. But it also takes lines together: from the last line
on all lines are one, and there the columns decide although the lines are different. So a
position that comes later in the source can have the smaller word, if both lines are clamped to
the last one (`ofLineColumn_reverses`). Everywhere else the words are in source order
(`positions_in_source_order`).
-/

namespace ShiftReduce.Position

theorem le_iff_toNat_le {a b : Position} : a ≤ b ↔ a.packed.toNat ≤ b.packed.toNat :=
  UInt32.le_iff_toNat_le

theorem toNat_min (a b : UInt32) : (min a b).toNat = min a.toNat b.toNat := by
  show (if a ≤ b then a else b).toNat = _
  split
  · rename_i h
    exact (Nat.min_eq_left (UInt32.le_iff_toNat_le.mp h)).symm
  · rename_i h
    rw [UInt32.not_le, UInt32.lt_iff_toNat_lt] at h
    exact (Nat.min_eq_right (Nat.le_of_lt h)).symm

/-- A word has room for the coordinates that are left after clamping, so nothing wraps. -/
theorem toNat_ofLineColumn (line column : UInt32) :
    (ofLineColumn line column).packed.toNat =
      (min line maxLine).toNat * 4096 + (min column maxColumn).toNat := by
  have hline : (min line maxLine).toNat ≤ 1048575 := by
    rw [toNat_min]
    exact Nat.min_le_right _ _
  have hcolumn : (min column maxColumn).toNat ≤ 4095 := by
    rw [toNat_min]
    exact Nat.min_le_right _ _
  show (min line maxLine * columns + min column maxColumn).toNat = _
  rw [UInt32.toNat_add, UInt32.toNat_mul, show columns.toNat = 4096 from rfl]
  omega

/-- Positions are in the lexicographic order of their clamped coordinates. -/
theorem ofLineColumn_le_iff (l₁ c₁ l₂ c₂ : UInt32) :
    ofLineColumn l₁ c₁ ≤ ofLineColumn l₂ c₂ ↔
      min l₁ maxLine < min l₂ maxLine ∨
        min l₁ maxLine = min l₂ maxLine ∧ min c₁ maxColumn ≤ min c₂ maxColumn := by
  have hcolumn : ∀ c, (min c maxColumn).toNat ≤ 4095 := by
    intro c
    rw [toNat_min]
    exact Nat.min_le_right _ _
  have hcolumn₁ := hcolumn c₁
  have hcolumn₂ := hcolumn c₂
  rw [le_iff_toNat_le, toNat_ofLineColumn, toNat_ofLineColumn, UInt32.lt_iff_toNat_lt,
    UInt32.le_iff_toNat_le, ← UInt32.toNat_inj]
  omega

/-- The lexicographic order of a line and a column, which is the order of places in a source. -/
def InSourceOrder (l₁ c₁ l₂ c₂ : UInt32) : Prop := l₁ < l₂ ∨ l₁ = l₂ ∧ c₁ ≤ c₂

/-- Of two lines in order, the later one is the greater after clamping unless the earlier one is
clamped to the last line or stands there. -/
theorem min_maxLine_lt_iff {l₁ l₂ : UInt32} (h : l₁ < l₂) :
    min l₁ maxLine < min l₂ maxLine ↔ l₁ < maxLine := by
  rw [UInt32.lt_iff_toNat_lt, UInt32.lt_iff_toNat_lt, toNat_min, toNat_min]
  rw [UInt32.lt_iff_toNat_lt] at h
  omega

/-- On and behind the last line, the end of the one before can have the greater word. -/
theorem ofLineColumn_reverses :
    ¬∀ l₁ c₁ l₂ c₂ : UInt32, InSourceOrder l₁ c₁ l₂ c₂ →
      ofLineColumn l₁ c₁ ≤ ofLineColumn l₂ c₂ := by
  intro h
  have hle := h 1048575 1 1048576 0 (.inl (by decide))
  exact absurd hle (by decide)

/-- Places in source order have their positions in this order, whether coordinates are clamped or
not, with one exception: where both lines come to stand on the last one, it is the clamped columns
that are in order. -/
theorem positions_in_source_order {l₁ c₁ l₂ c₂ : UInt32} (h : InSourceOrder l₁ c₁ l₂ c₂) :
    ofLineColumn l₁ c₁ ≤ ofLineColumn l₂ c₂ ↔
      ¬(maxLine ≤ l₁ ∧ l₁ < l₂ ∧ min c₂ maxColumn < min c₁ maxColumn) := by
  rw [ofLineColumn_le_iff]
  rcases h with hline | ⟨rfl, hcolumn⟩
  · by_cases hlast : maxLine ≤ l₁
    · -- Both lines are clamped to the last one, so the columns decide.
      have hequal : min l₁ maxLine = min l₂ maxLine := by
        rw [← UInt32.toNat_inj, toNat_min, toNat_min]
        rw [UInt32.le_iff_toNat_le] at hlast
        rw [UInt32.lt_iff_toNat_lt] at hline
        omega
      simp [hequal, hlast, hline, UInt32.not_lt, UInt32.lt_irrefl]
    · have hlt := UInt32.not_le.mp hlast
      simp [min_maxLine_lt_iff hline, hlt, hlast]
  · -- In one line the columns are in order, and clamping keeps that.
    have hclamped : min c₁ maxColumn ≤ min c₂ maxColumn := by
      rw [UInt32.le_iff_toNat_le, toNat_min, toNat_min]
      rw [UInt32.le_iff_toNat_le] at hcolumn
      omega
    simp [hclamped, UInt32.lt_irrefl]

/-- The end of a line too long for a word stays before the next line, but not where the lines are
clamped. -/
theorem order_of_long_lines :
    ofLineColumn 7 9000 ≤ ofLineColumn 8 0 ∧
      ¬ofLineColumn 1048575 1 ≤ ofLineColumn 1048576 0 :=
  ⟨(positions_in_source_order (.inl (by decide))).mpr (by decide),
    fun h => (positions_in_source_order (.inl (by decide))).mp h (by decide)⟩

end ShiftReduce.Position
