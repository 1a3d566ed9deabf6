import Mathlib.Data.Finset.Card
import Mathlib.Data.Finset.Image
import ShiftReduce.Tables.Packing

/-!
# First-fit packing keeps rows apart

A row is placed at the first offset at which all its places are free and which no
other row has. `Packing.Holds` is what this preserves: all slots of all rows are in
place, every place that is taken belongs to a row, and different rows have different
offsets. So a place and its owner tell the row.

* `Packing.Searches`: the search, offset by offset.
* `Packing.offsetFor_searches`: it comes to an end at the offset that a row is given, which
  is the least one that admits the row (`Packing.offsetFor_spec`).
* `Packing.Holds.place` and `Packing.holds_ofRows`: one row, and all of them.
* `Packing.Holds.mem_of_get?`: a slot that is met from the offset of a row belongs to
  that row.
-/

namespace ShiftReduce.Tables

namespace Packing

variable {p : Packing} {row : List Slot} {rows : List (List Slot)} {offset : Int} {s s' : Slot}
  {i count : Nat} {placed : List (List Slot × Int)}

/-- Whether a row is strictly sorted by owner. -/
def Ascending (row : List Slot) : Prop := row.Pairwise fun a b => a.owner < b.owner

/-! ## The search -/

/-- The search for an offset. It goes on to the next one until there is one that admits the
row. -/
inductive Searches (p : Packing) (row : List Slot) : Int → Int → Prop
  | here {offset : Int} : p.admits row offset = true → Searches p row offset offset
  | next {offset found : Int} : p.admits row offset = false →
      Searches p row (offset + 1) found → Searches p row offset found

/-- A search ends at the first offset that admits the row. -/
theorem Searches.spec {found : Int} (h : Searches p row offset found) :
    p.admits row found = true ∧ offset ≤ found ∧
      ∀ o, offset ≤ o → o < found → p.admits row o = false := by
  induction h with
  | here hadmits => exact ⟨hadmits, Int.le_refl _, fun o hle hlt => by omega⟩
  | @next offset found hrefused _ ih =>
    obtain ⟨hadmits, hle, hbefore⟩ := ih
    refine ⟨hadmits, by omega, ?_⟩
    intro o ho hlt
    by_cases heq : o = offset
    · rw [heq]
      exact hrefused
    · exact hbefore o (by omega) hlt

/-- The search ends within its bound, if an offset in reach of it admits the row. -/
theorem firstFit_searches {k : Nat} (hk : k ≤ count) (hadmits : p.admits row (offset + k) = true) :
    Searches p row offset (p.firstFit row count offset) := by
  induction count generalizing offset k with
  | zero =>
    obtain rfl : k = 0 := by omega
    rw [Int.natCast_zero, Int.add_zero] at hadmits
    exact .here hadmits
  | succ count ih =>
    rw [firstFit]
    split
    · rename_i hhere
      exact .here hhere
    · rename_i hhere
      have hpos : k ≠ 0 := by
        rintro rfl
        rw [Int.natCast_zero, Int.add_zero] at hadmits
        exact hhere hadmits
      have hshift : offset + 1 + ((k - 1 : Nat) : Int) = offset + k := by omega
      exact .next (Bool.eq_false_iff.mpr hhere)
        (ih (k := k - 1) (by omega) (by rw [hshift]; exact hadmits))

/-- One of more numbers in a row than a list is long is not in the list. -/
theorem exists_not_mem (offsets : List Int) (base : Int) :
    ∃ j ≤ offsets.length, base + (j : Int) ∉ offsets := by
  by_contra hall
  push Not at hall
  have hsubset : (Finset.range (offsets.length + 1)).image (fun j : Nat => base + (j : Int)) ⊆
      offsets.toFinset := by
    intro o ho
    obtain ⟨j, hj, rfl⟩ := Finset.mem_image.mp ho
    rw [Finset.mem_range] at hj
    exact List.mem_toFinset.mpr (hall j (by omega))
  have hcard := Finset.card_le_card hsubset
  rw [Finset.card_image_of_injective _ (fun a b hab => by
    have : base + (a : Int) = base + (b : Int) := hab
    omega),
    Finset.card_range] at hcard
  have := offsets.toFinset_card_le
  omega

/-- Behind the end of the array everything fits. -/
theorem fits_of_size_le (h : (p.places.size : Int) ≤ offset) : p.fits row offset = true := by
  rw [fits, List.all_eq_true]
  intro s _
  rw [isFree, SparseArray.get?_of_size_le]
  · rfl
  · rw [index]
    omega

/-- The search for the offset of a row ends. -/
theorem offsetFor_searches (p : Packing) (row : List Slot) :
    Searches p row (leastOffset row) (p.offsetFor row) := by
  have hleast : leastOffset row ≤ 0 := by
    unfold leastOffset
    split <;> omega
  obtain ⟨j, hj, hfresh⟩ := exists_not_mem p.offsets p.places.size
  have hadmits : p.admits row (p.places.size + (j : Int)) = true := by
    rw [admits, fits_of_size_le (by omega), Bool.true_and, Bool.not_eq_true',
      List.contains_eq_mem, decide_eq_false_iff_not]
    exact hfresh
  apply firstFit_searches (k := (leastOffset row).natAbs + p.places.size + j) (by omega)
  have hsum : leastOffset row + (((leastOffset row).natAbs + p.places.size + j : Nat) : Int) =
      p.places.size + (j : Int) := by
    omega
  rw [hsum]
  exact hadmits

/-- The offset for a row admits it, and it is the least one that does. -/
theorem offsetFor_spec (p : Packing) (row : List Slot) :
    p.admits row (p.offsetFor row) = true ∧ leastOffset row ≤ p.offsetFor row ∧
      ∀ o, leastOffset row ≤ o → o < p.offsetFor row → p.admits row o = false :=
  (offsetFor_searches p row).spec

/-- What it takes for an offset to admit a row. -/
theorem admits_iff : p.admits row offset = true ↔
    (∀ s ∈ row, p.places.get? (index offset s) = none) ∧ offset ∉ p.offsets := by
  simp [admits, fits, isFree]

/-! ## Placing one row -/

/-- No slot of an ascending row comes before the start. -/
theorem nonneg_of_leastOffset_le (hrow : Ascending row) (h : leastOffset row ≤ offset)
    (hs : s ∈ row) : 0 ≤ offset + (s.owner.toNat : Int) := by
  cases row with
  | nil => cases hs
  | cons first rest =>
    rw [leastOffset] at h
    have hfirst : first.owner.toNat ≤ s.owner.toNat := by
      rcases List.mem_cons.mp hs with rfl | hs
      · exact Nat.le_refl _
      · have := (List.pairwise_cons.mp hrow).1 s hs
        rw [UInt16.lt_iff_toNat_lt] at this
        omega
    omega

theorem get?_placeAt_of_forall_ne (h : ∀ s ∈ row, index offset s ≠ i) :
    (p.placeAt row offset).places.get? i = p.places.get? i := by
  show SparseArray.get? (row.foldl _ p.places) i = _
  generalize p.places = places
  induction row generalizing places with
  | nil => rfl
  | cons s row ih =>
    rw [List.foldl_cons, ih (fun s' hs' => h s' (List.mem_cons_of_mem _ hs')),
      SparseArray.get?_set, if_neg (h s List.mem_cons_self)]

/-- The slots of a row that is placed are where they belong. -/
theorem get?_placeAt_of_mem (hrow : Ascending row)
    (hstart : ∀ s ∈ row, 0 ≤ offset + (s.owner.toNat : Int)) (hs : s ∈ row) :
    (p.placeAt row offset).places.get? (index offset s) = some s := by
  induction row generalizing p with
  | nil => cases hs
  | cons first rest ih =>
    obtain ⟨hfirst, hrest⟩ := List.pairwise_cons.mp hrow
    have hstep : ((p.placeAt [first] offset).placeAt rest offset).places =
        (p.placeAt (first :: rest) offset).places := rfl
    rw [← hstep]
    rcases List.mem_cons.mp hs with rfl | hs
    · rw [get?_placeAt_of_forall_ne]
      · show SparseArray.get? (SparseArray.set p.places _ s) _ = _
        rw [SparseArray.get?_set, if_pos rfl]
      · intro s' hs' heq
        have hlt := hfirst s' hs'
        rw [UInt16.lt_iff_toNat_lt] at hlt
        have h := hstart s List.mem_cons_self
        rw [index, index] at heq
        omega
    · exact ih hrest (fun s' hs' => hstart s' (List.mem_cons_of_mem _ hs')) hs

/-! ## Placing rows -/

/-- A packing holds rows at offsets: each slot is in place, and nothing else is. -/
structure Holds (p : Packing) (placed : List (List Slot × Int)) : Prop where
  offsets_eq : p.offsets = (placed.map Prod.snd).reverse
  nodup : (placed.map Prod.snd).Nodup
  nonneg : ∀ row offset, (row, offset) ∈ placed → ∀ s ∈ row, 0 ≤ offset + (s.owner.toNat : Int)
  held : ∀ row offset, (row, offset) ∈ placed → ∀ s ∈ row, p.places.get? (index offset s) = some s
  owned : ∀ i s, p.places.get? i = some s →
    ∃ row offset, (row, offset) ∈ placed ∧ s ∈ row ∧ index offset s = i

theorem holds_empty : Holds empty [] where
  offsets_eq := rfl
  nodup := List.nodup_nil
  nonneg := by simp
  held := by simp
  owned := by
    intro i s h
    rw [SparseArray.get?_of_size_le (Nat.zero_le i)] at h
    cases h

/-- A place that is taken stays with its slot, since it is not one of the places of a new row. -/
theorem get?_place (hi : p.places.get? i = some s) : (p.place row).places.get? i = some s := by
  obtain ⟨hfree, -⟩ := admits_iff.mp (offsetFor_spec p row).1
  rw [place, get?_placeAt_of_forall_ne, hi]
  rintro s' hs' rfl
  rw [hfree s' hs'] at hi
  cases hi

/-- Placing a row leaves the others where they are. -/
theorem Holds.place (h : Holds p placed) (hrow : Ascending row) :
    Holds (p.place row) (placed ++ [(row, p.offsetFor row)]) := by
  obtain ⟨hadmits, hleast, -⟩ := offsetFor_spec p row
  obtain ⟨-, hfresh⟩ := admits_iff.mp hadmits
  have hstart : ∀ s ∈ row, 0 ≤ p.offsetFor row + (s.owner.toNat : Int) := fun s hs =>
    nonneg_of_leastOffset_le hrow hleast hs
  constructor
  · rw [List.map_append, List.reverse_append, ← h.offsets_eq]
    rfl
  · rw [List.map_append]
    refine List.nodup_append.mpr ⟨h.nodup, List.nodup_singleton _, ?_⟩
    intro o ho o' ho'
    rintro rfl
    rw [List.map_singleton, List.mem_singleton] at ho'
    subst ho'
    rw [h.offsets_eq, List.mem_reverse] at hfresh
    exact hfresh ho
  · intro row' offset hmem
    rcases List.mem_append.mp hmem with hmem | hmem
    · exact h.nonneg row' offset hmem
    · cases List.mem_singleton.mp hmem
      exact hstart
  · intro row' offset hmem s hs
    rcases List.mem_append.mp hmem with hmem | hmem
    · exact get?_place (h.held row' offset hmem s hs)
    · cases List.mem_singleton.mp hmem
      exact get?_placeAt_of_mem hrow hstart hs
  · intro i s hi
    -- A place that is taken is one of the new row, or it was taken before.
    by_cases hmine : ∃ s' ∈ row, index (p.offsetFor row) s' = i
    · obtain ⟨s', hs', rfl⟩ := hmine
      rw [Packing.place, get?_placeAt_of_mem hrow hstart hs'] at hi
      cases hi
      exact ⟨row, _, List.mem_append_right _ List.mem_cons_self, hs', rfl⟩
    · rw [Packing.place, get?_placeAt_of_forall_ne fun s' hs' heq => hmine ⟨s', hs', heq⟩] at hi
      obtain ⟨row', offset, hmem, hs, hindex⟩ := h.owned i s hi
      exact ⟨row', offset, List.mem_append_left _ hmem, hs, hindex⟩

/-- All rows are placed, in order. -/
theorem holds_ofRows (hrows : ∀ row ∈ rows, Ascending row) :
    Holds (ofRows rows) (rows.zip (ofRows rows).offsets.reverse) ∧
      (ofRows rows).offsets.length = rows.length := by
  have hall : ∀ (p : Packing) (placed : List (List Slot × Int)), Holds p placed →
      ∃ placed', Holds (rows.foldl Packing.place p) placed' ∧
        placed'.map Prod.fst = placed.map Prod.fst ++ rows := by
    induction rows with
    | nil => exact fun p placed h => ⟨placed, h, (List.append_nil _).symm⟩
    | cons row rows ih =>
      intro p placed h
      obtain ⟨placed', h', hfst⟩ := ih (fun r hr => hrows r (List.mem_cons_of_mem _ hr)) _ _
        (h.place (hrows row List.mem_cons_self))
      refine ⟨placed', h', ?_⟩
      rw [hfst, List.map_append, List.append_assoc]
      rfl
  obtain ⟨placed, hholds, hfst⟩ := hall empty [] holds_empty
  rw [List.map_nil, List.nil_append] at hfst
  have hsnd : (ofRows rows).offsets.reverse = placed.map Prod.snd := by
    rw [show (ofRows rows).offsets = _ from hholds.offsets_eq, List.reverse_reverse]
  have hzip : rows.zip (ofRows rows).offsets.reverse = placed := by
    rw [hsnd, ← hfst, List.zip_map']
    exact List.map_id _
  refine ⟨hzip ▸ hholds, ?_⟩
  rw [← List.length_reverse, hsnd, ← hfst, List.length_map, List.length_map]

/-- A slot that is met from the offset of a row belongs to that row. -/
theorem Holds.mem_of_get? (h : Holds p placed) (hplaced : (row, offset) ∈ placed)
    (hpos : 0 ≤ offset + (s.owner.toNat : Int)) (hs : p.places.get? (index offset s) = some s) :
    s ∈ row := by
  obtain ⟨row', offset', hmem, hs', hindex⟩ := h.owned _ _ hs
  have hpos' := h.nonneg row' offset' hmem s hs'
  -- The place and the symbol determine the offset, and the offset the row.
  have heq : offset' = offset := by
    rw [index, index] at hindex
    omega
  subst heq
  have hsame := List.inj_on_of_nodup_map h.nodup hmem hplaced rfl
  cases hsame
  exact hs'

end Packing

end ShiftReduce.Tables
