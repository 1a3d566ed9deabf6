import Mathlib.Order.Bounds.Defs
import ShiftReduce.Proofs.Tables.Lookup

/-!
# Rows placed one after another

What a packing is like when some rows have been placed, and what happens when another one is. The
arrays have the entries of the rows at their offsets, and all other places are free. The next row
is given the least offset that is left for it, where it disturbs none of the others.

* `Builder.Places`: packings that come about row by row, and `places_ofRows`: all rows of a list.
* `Builder.Laid` and `Places.laid`: what is in the arrays.
* `Builder.FirstFits` and `Places.firstFits`: where the next row comes to lie.
* `Packing.getElem?_place`: the places that are taken stay as they are.
-/

namespace ShiftReduce.Tables

open Packing

/-- A row that can be placed. It has entries, sorted by symbol, and none for the symbol that marks
free places. -/
structure Row.Placeable (row : Row) : Prop where
  ne_nil : row ≠ []
  ascending : row.Ascending
  lt_freeSlot : ∀ e ∈ row, e.1 < freeSlot

namespace Packing

variable {p : Packing} {row : List Slot} {i : Nat} {s : Slot} {x : SymbolId} {code : Int16}

/-- Whether a place of the arrays belongs to a symbol. -/
def Occupied (p : Packing) (i : Nat) : Prop :=
  ∃ owner, p.owners[i]? = some owner ∧ owner ≠ freeSlot

/-- What the arrays have in a place that is taken. -/
theorem getElem?_of_get? (h : p.places.get? i = some s) :
    p.owners[i]? = some s.owner ∧ p.codes[i]? = some s.code := by
  rw [SparseArray.get?, Option.join_eq_some_iff] at h
  rw [owners, codes, Array.getElem?_map, Array.getElem?_map, h]
  exact ⟨rfl, rfl⟩

/-- What the arrays have in a place that is free. -/
theorem getElem?_of_get?_eq_none (h : p.places.get? i = none) (hi : i < p.owners.size) :
    p.owners[i]? = some freeSlot ∧ p.codes[i]? = some 0 := by
  rw [owners, Array.size_map] at hi
  rw [SparseArray.get?, Array.getElem?_eq_getElem hi] at h
  have hplace : p.places[i] = none := h
  rw [owners, codes, Array.getElem?_map, Array.getElem?_map, Array.getElem?_eq_getElem hi, hplace]
  exact ⟨rfl, rfl⟩

/-- A place is occupied if it is taken, unless it belongs to the symbol that marks free places. -/
theorem occupied_iff (howners : ∀ i s, p.places.get? i = some s → s.owner ≠ freeSlot) :
    p.Occupied i ↔ p.places.get? i ≠ none := by
  constructor
  · rintro ⟨owner, howner, hne⟩ hnone
    obtain ⟨hi, -⟩ := Array.getElem?_eq_some_iff.mp howner
    rw [(getElem?_of_get?_eq_none hnone hi).1] at howner
    exact hne (Option.some_inj.mp howner).symm
  · intro htaken
    obtain ⟨s, hs⟩ := Option.ne_none_iff_exists'.mp htaken
    exact ⟨s.owner, (getElem?_of_get? hs).1, howners i s hs⟩

/-- Placing a row changes no place that is taken. -/
theorem getElem?_place (hi : p.places.get? i = some s) :
    (p.place row).owners[i]? = p.owners[i]? ∧ (p.place row).codes[i]? = p.codes[i]? := by
  obtain ⟨howner, hcode⟩ := getElem?_of_get? hi
  have hkept : (p.place row).places.get? i = some s := get?_place hi
  obtain ⟨howner', hcode'⟩ := getElem?_of_get? hkept
  exact ⟨howner'.trans howner.symm, hcode'.trans hcode.symm⟩

theorem length_offsets_ofRows (rows : List (List Slot)) :
    (ofRows rows).offsets.length = rows.length := by
  induction rows using List.reverseRecOn with
  | nil => rfl
  | append_singleton rows row ih =>
    rw [ofRows, List.foldl_append, List.length_append]
    exact congrArg (· + 1) ih

end Packing

namespace Builder

variable {b : Builder} {placed : List (Row × Int)} {p : Packing} {row : Row} {i : Nat}

/-- Rows that have been placed one after another, with the offsets that they have been given, and
the packing that they make. -/
inductive Places (b : Builder) : List (Row × Int) → Packing → Prop
  | nothing : Places b [] .empty
  | place {placed : List (Row × Int)} {p : Packing} {row : Row} : Places b placed p →
      row.Placeable →
      Places b (placed ++ [(row, p.offsetFor (b.slots row))]) (p.place (b.slots row))

/-- What the arrays have when rows have been placed at offsets: the entries of these rows, each in
a place of its own, and nothing else. -/
structure Laid (b : Builder) (placed : List (Row × Int)) (p : Packing) : Prop where
  held : ∀ row offset x action, (row, offset) ∈ placed → (x, action) ∈ row →
    0 ≤ offset + (x.toNat : Int) ∧
    p.owners[(offset + (x.toNat : Int)).toNat]? = some x ∧
    p.codes[(offset + (x.toNat : Int)).toNat]? = some (action.encode b.rules.size)
  apart : placed.Pairwise fun e e' => ∀ x action y action', (x, action) ∈ e.1 →
    (y, action') ∈ e'.1 → e.2 + (x.toNat : Int) ≠ e'.2 + (y.toNat : Int)
  size_eq : p.codes.size = p.owners.size
  free : ∀ i < p.owners.size,
    (∀ row offset x action, (row, offset) ∈ placed → (x, action) ∈ row →
      offset + (x.toNat : Int) ≠ i) →
    p.owners[i]? = some freeSlot ∧ p.codes[i]? = some 0

/-- The offset that a row is given when others have been placed. -/
structure FirstFits (b : Builder) (placed : List (Row × Int)) (p : Packing) (row : Row)
    (offset : Int) : Prop where
  /-- The search for it comes to an end. -/
  searched : p.Searches (b.slots row) (leastOffset (b.slots row)) offset
  /-- It is the least one that brings no symbol before the start, that no other row has, and at
  which the row meets with no occupied place. -/
  isLeast : IsLeast {o : Int | (∀ first ∈ row.head?, -(first.1.toNat : Int) ≤ o) ∧
    (∀ row', (row', o) ∉ placed) ∧
    ∀ x action, (x, action) ∈ row → ¬p.Occupied (o + (x.toNat : Int)).toNat} offset

/-! ## Rows and their slots -/

/-- What has been placed, as it is stored. -/
def stored (b : Builder) (placed : List (Row × Int)) : List (List Slot × Int) :=
  placed.map fun e => (b.slots e.1, e.2)

theorem mem_stored {row : Row} {offset : Int} (h : (row, offset) ∈ placed) :
    (b.slots row, offset) ∈ b.stored placed :=
  List.mem_map.mpr ⟨_, h, rfl⟩

theorem slot_mem_slots {x : SymbolId} {action : Action} (h : (x, action) ∈ row) :
    ⟨x, action.encode b.rules.size⟩ ∈ b.slots row :=
  mem_slots.mpr ⟨action, h, rfl⟩

theorem le_iff_leastOffset_le (hne : row ≠ []) {o : Int} :
    (∀ first ∈ row.head?, -(first.1.toNat : Int) ≤ o) ↔ leastOffset (b.slots row) ≤ o := by
  cases row with
  | nil => exact absurd rfl hne
  | cons first rest => simp [slots, leastOffset]

/-- The rows of a list are placed one after another, each at the offset that is noted for it. -/
theorem places_ofRows (b : Builder) {rows : List Row} (hrows : ∀ row ∈ rows, row.Placeable) :
    b.Places (rows.zip (ofRows (rows.map b.slots)).offsets.reverse)
      (ofRows (rows.map b.slots)) := by
  induction rows using List.reverseRecOn with
  | nil => exact .nothing
  | append_singleton rows row ih =>
    obtain ⟨hearlier, hrow⟩ := List.forall_mem_append.mp hrows
    have hplaced := (ih hearlier).place (hrow row List.mem_cons_self)
    have hlength : rows.length = (ofRows (rows.map b.slots)).offsets.reverse.length := by
      rw [List.length_reverse, length_offsets_ofRows, List.length_map]
    have hlast : ofRows ((rows ++ [row]).map b.slots) =
        (ofRows (rows.map b.slots)).place (b.slots row) := by
      rw [List.map_append, ofRows, List.foldl_append]
      rfl
    have hoffsets : ((ofRows (rows.map b.slots)).place (b.slots row)).offsets.reverse =
        (ofRows (rows.map b.slots)).offsets.reverse ++
          [(ofRows (rows.map b.slots)).offsetFor (b.slots row)] :=
      List.reverse_cons
    rw [hlast, hoffsets, List.zip_append hlength]
    exact hplaced

namespace Places

theorem placeable (h : b.Places placed p) : ∀ row offset, (row, offset) ∈ placed →
    row.Placeable := by
  induction h with
  | nothing => simp
  | place _ hrow ih =>
    intro row' offset hmem
    rcases List.mem_append.mp hmem with hmem | hmem
    · exact ih row' offset hmem
    · cases List.mem_singleton.mp hmem
      exact hrow

theorem holds (h : b.Places placed p) : Holds p (b.stored placed) := by
  induction h with
  | nothing => exact holds_empty
  | place _ hrow ih =>
    rw [stored, List.map_append]
    exact ih.place (ascending_slots b hrow.ascending)

/-- No place belongs to the symbol that marks free places. -/
theorem owner_ne_freeSlot (h : b.Places placed p) (i : Nat) (s : Slot)
    (hs : p.places.get? i = some s) : s.owner ≠ freeSlot := by
  obtain ⟨slots, offset, hmem, hslot, -⟩ := h.holds.owned i s hs
  obtain ⟨⟨row, offset⟩, hplaced, heq⟩ := List.mem_map.mp hmem
  cases heq
  obtain ⟨action, haction, -⟩ := mem_slots.mp hslot
  exact UInt16.ne_of_lt ((h.placeable row offset hplaced).lt_freeSlot _ haction)

/-- The arrays have the entries of the rows that have been placed, and nothing else. -/
theorem laid (h : b.Places placed p) : b.Laid placed p := by
  have hholds := h.holds
  constructor
  case held =>
    intro row offset x action hplaced hentry
    have hslot : ⟨x, action.encode b.rules.size⟩ ∈ b.slots row := slot_mem_slots hentry
    exact ⟨hholds.nonneg _ _ (mem_stored hplaced) _ hslot,
      getElem?_of_get? (hholds.held _ _ (mem_stored hplaced) _ hslot)⟩
  case apart =>
    have hnodup := hholds.nodup
    rw [stored, List.map_map, List.Nodup, List.pairwise_map] at hnodup
    refine hnodup.imp_of_mem ?_
    intro e e' he he' hne x action y action' hx hy hsame
    -- One place has one owner, so the two rows would have the same offset.
    have hfirst := hholds.held _ _ (mem_stored he) _ (slot_mem_slots hx)
    have hsecond := hholds.held _ _ (mem_stored he') _ (slot_mem_slots hy)
    rw [index] at hfirst hsecond
    rw [hsame, hsecond] at hfirst
    have howner : y = x := congrArg Slot.owner (Option.some_inj.mp hfirst)
    rw [howner] at hsame
    exact hne (show e.2 = e'.2 by omega)
  case size_eq => rw [codes, owners, Array.size_map, Array.size_map]
  case free =>
    intro i hi hfree
    refine getElem?_of_get?_eq_none ?_ hi
    rw [Option.eq_none_iff_forall_ne_some]
    intro s hs
    obtain ⟨slots, offset, hmem, hslot, hindex⟩ := hholds.owned i s hs
    have hpos := hholds.nonneg slots offset hmem s hslot
    obtain ⟨⟨row, offset⟩, hplaced, heq⟩ := List.mem_map.mp hmem
    cases heq
    obtain ⟨action, haction, -⟩ := mem_slots.mp hslot
    rw [index] at hindex
    exact hfree row offset s.owner action hplaced haction (by omega)

/-- What it takes for an offset to admit another row. -/
theorem admits_iff (h : b.Places placed p) {o : Int} : p.admits (b.slots row) o = true ↔
    (∀ row', (row', o) ∉ placed) ∧
      ∀ x action, (x, action) ∈ row → ¬p.Occupied (o + (x.toNat : Int)).toNat := by
  rw [Packing.admits_iff, and_comm]
  apply and_congr
  · rw [h.holds.offsets_eq, List.mem_reverse, stored, List.map_map]
    simp
  · constructor
    · intro hfree x action hentry
      rw [occupied_iff h.owner_ne_freeSlot, ne_eq, Decidable.not_not]
      exact hfree _ (slot_mem_slots hentry)
    · intro hfree s hs
      obtain ⟨action, hentry, -⟩ := mem_slots.mp hs
      have hplace := hfree s.owner action hentry
      rwa [occupied_iff h.owner_ne_freeSlot, ne_eq, Decidable.not_not] at hplace

/-- The next row is given the least offset that is left for it. -/
theorem firstFits (h : b.Places placed p) (hrow : row.Placeable) :
    b.FirstFits placed p row (p.offsetFor (b.slots row)) := by
  obtain ⟨hadmits, hleast, hbefore⟩ := offsetFor_spec p (b.slots row)
  refine ⟨offsetFor_searches p (b.slots row), ?_, ?_⟩
  · exact ⟨(le_iff_leastOffset_le hrow.ne_nil).mpr hleast, h.admits_iff.mp hadmits⟩
  · rintro o ⟨hstart, ho⟩
    by_contra hlt
    have hrefused := hbefore o ((le_iff_leastOffset_le hrow.ne_nil).mp hstart) (not_le.mp hlt)
    rw [h.admits_iff.mpr ho] at hrefused
    cases hrefused

end Places

/-- Rows that are placed one after another, each in ascending order and none for the symbol that
marks free places, are placed first fit. For each row the search ends, with the least offset that
brings no symbol before the start, that no row before has, and at which all its places are free.
Behind each row the arrays have the entries of all rows that have been placed, and nothing else;
so no place that is taken is ever changed. -/
theorem rows_are_placed_first_fit (b : Builder) :
    (∀ rows : List Row, (∀ row ∈ rows, row.Placeable) →
      b.Places (rows.zip (ofRows (rows.map b.slots)).offsets.reverse)
        (ofRows (rows.map b.slots))) ∧
    ∀ placed p, b.Places placed p → b.Laid placed p ∧
      ∀ row : Row, row.Placeable →
        b.FirstFits placed p row (p.offsetFor (b.slots row)) ∧
        ∀ i, p.Occupied i → (p.place (b.slots row)).owners[i]? = p.owners[i]? ∧
          (p.place (b.slots row)).codes[i]? = p.codes[i]? := by
  refine ⟨fun rows => b.places_ofRows, fun placed p h => ⟨h.laid, fun row hrow => ?_⟩⟩
  refine ⟨h.firstFits hrow, fun i hoccupied => ?_⟩
  rw [occupied_iff h.owner_ne_freeSlot] at hoccupied
  obtain ⟨s, hs⟩ := Option.ne_none_iff_exists'.mp hoccupied
  exact getElem?_place hs

/-- A row with a gap. -/
def gapped : Row := [(0, .shift 1), (2, .shift 2)]

/-- A row of one entry, which would fill the gap. -/
def single : Row := [(1, .shift 3)]

/-- In the gap the second row would have the offset of the first one, and before and behind it there
are entries of that. So it comes to lie behind the whole row. -/
theorem rows_are_placed_first_fit_gapped :
    (new 3 3).FirstFits [(gapped, 0)] (ofRows [(new 3 3).slots gapped]) single 2 ∧
      (new 3 3).Laid [(gapped, 0), (single, 2)]
        (ofRows [(new 3 3).slots gapped, (new 3 3).slots single]) ∧
      (ofRows [(new 3 3).slots gapped, (new 3 3).slots single]).owners =
        #[0, freeSlot, 2, 1] := by
  have hgapped : gapped.Placeable :=
    ⟨List.cons_ne_nil _ _, by unfold Row.Ascending gapped; decide, by unfold gapped; decide⟩
  have hsingle : single.Placeable :=
    ⟨List.cons_ne_nil _ _, by unfold Row.Ascending single; decide, by unfold single; decide⟩
  obtain ⟨hplaces, hplaced⟩ := rows_are_placed_first_fit (new 3 3)
  have hfirst := hplaces [gapped] (List.forall_mem_singleton.mpr hgapped)
  have hboth := hplaces [gapped, single] (by simp [hgapped, hsingle])
  exact ⟨((hplaced _ _ hfirst).2 single hsingle).1, (hplaced _ _ hboth).1, by decide +kernel⟩

end Builder

end ShiftReduce.Tables
