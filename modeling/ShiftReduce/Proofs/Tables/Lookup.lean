import ShiftReduce.Proofs.Tables.Cells
import ShiftReduce.Proofs.Tables.FirstFit
import ShiftReduce.Tables.Builder

/-!
# Looking up in packed rows

A builder packs each row that has entries and notes its offset. What the packed arrays
have for a symbol from the offset of a state is then the entry of the row of that
state, and nothing from a state without a row (`Builder.entry?_of_offsets`).

* `Packing.read_eq_some_iff`: reading one place of the arrays.
* `Builder.getElem?_offsets_of_mem` and `Builder.getElem?_offsets_of_forall`: where the
  rows of a kind start.
* `Builder.nodup_keys`: no row is packed twice.
-/

namespace ShiftReduce.Tables

/-! ## Words in order -/

theorem mem_wordsBelow {x : UInt16} {n : Nat} (hx : x.toNat < n) :
    x ∈ (List.range n).map UInt16.ofNat := by
  refine List.mem_map.mpr ⟨x.toNat, List.mem_range.mpr hx, ?_⟩
  exact UInt16.ofNat_toNat

theorem nodup_wordsBelow {n : Nat} (h : n ≤ 65536) : ((List.range n).map UInt16.ofNat).Nodup := by
  refine List.Nodup.map_on ?_ List.nodup_range
  intro i hi j hj heq
  rw [List.mem_range] at hi hj
  have hnat := congrArg UInt16.toNat heq
  rwa [UInt16.toNat_ofNat', UInt16.toNat_ofNat', Nat.mod_eq_of_lt (by omega),
    Nat.mod_eq_of_lt (by omega)] at hnat

/-! ## Reading a place -/

namespace Packing

variable {p : Packing} {row : List Slot} {placed : List (List Slot × Int)} {offset : Int}
  {i : Nat} {x : SymbolId} {code : Int16}

/-- The owner and the code of a place, read from the two arrays. -/
theorem read_eq_some_iff (hx : x ≠ freeSlot) :
    (if p.owners[i]? = some x then p.codes[i]? else none) = some code ↔
      p.places.get? i = some ⟨x, code⟩ := by
  rw [owners, codes, Array.getElem?_map, Array.getElem?_map, SparseArray.get?]
  cases hplace : p.places[i]? with
  | none => simp
  | some place =>
    -- A free place shows the mark as its owner, which the symbol is not.
    cases place with
    | none =>
      rw [Option.map_some, if_neg]
      · simp
      · rw [ownerOf, Option.some_inj]
        exact fun heq => hx heq.symm
    | some s =>
      obtain ⟨owner, code'⟩ := s
      simp only [Option.map_some, ownerOf, codeOf, Option.some_inj, Option.join_some]
      constructor
      · intro h
        split at h
        · rename_i heq
          cases heq
          cases h
          rfl
        · cases h
      · rintro h
        cases h
        exact if_pos rfl

/-- From the offset of a row, the arrays have the slots of that row and no others. -/
theorem Holds.entry?_eq_some_iff {t : PackedTables} (h : Holds p placed)
    (howners : t.parts.owners = p.owners) (hcodes : t.parts.codes = p.codes)
    (hplaced : (row, offset) ∈ placed) (hx : x ≠ freeSlot) :
    t.entry? offset x = some code ↔ ⟨x, code⟩ ∈ row := by
  unfold PackedTables.entry?
  simp only [howners, hcodes]
  split
  · rename_i hneg
    constructor
    · intro hnone
      cases hnone
    · intro hmem
      exact absurd hneg (Int.not_lt.mpr (h.nonneg row offset hplaced _ hmem))
  · rename_i hpos
    rw [read_eq_some_iff hx]
    constructor
    · intro hget
      exact h.mem_of_get? hplaced (Int.not_lt.mp hpos) hget
    · intro hmem
      exact h.held row offset hplaced _ hmem

end Packing

namespace Builder

variable {b : Builder} {row : Row} {kind : SymbolKind} {s : StateId} {x : SymbolId}
  {code : Int16} {action : Action} {placed : List (Placement × Int)} {count : Nat} {offset : Int}

theorem mem_slots : ⟨x, code⟩ ∈ b.slots row ↔
    ∃ action, (x, action) ∈ row ∧ action.encode b.rules.size = code := by
  rw [slots, List.mem_map]
  constructor
  · rintro ⟨⟨y, action⟩, hmem, heq⟩
    cases heq
    exact ⟨action, hmem, rfl⟩
  · rintro ⟨action, hmem, rfl⟩
    exact ⟨(x, action), hmem, rfl⟩

theorem ascending_slots (b : Builder) (h : Row.Ascending row) :
    Packing.Ascending (b.slots row) :=
  List.Pairwise.map _ (fun _ _ hlt => hlt) h

/-- No symbol reaches a slot from the offset of a state without a row. -/
theorem entry?_unusedOffset (t : PackedTables) (x : SymbolId) :
    t.entry? unusedOffset x = none := by
  have hx := UInt16.toNat_lt x
  rw [PackedTables.entry?, if_pos]
  rw [unusedOffset]
  omega

/-! ## Where rows start -/

/-- What tells the rows of a table apart. -/
def Placement.key (q : Placement) : SymbolKind × StateId := (q.kind, q.state)

/-- Notes the offset of a row, if the row is of a kind. -/
def note (kind : SymbolKind) (offsets : Array Int) (e : Placement × Int) : Array Int :=
  if e.1.kind = kind then offsets.setIfInBounds e.1.state.toNat e.2 else offsets

theorem size_note (offsets : Array Int) (e : Placement × Int) :
    (note kind offsets e).size = offsets.size := by
  unfold note
  split
  · exact Array.size_setIfInBounds
  · rfl

theorem size_foldl_note (start : Array Int) :
    (placed.foldl (note kind) start).size = start.size := by
  induction placed generalizing start with
  | nil => rfl
  | cons e placed ih => rw [List.foldl_cons, ih, size_note]

theorem getElem?_foldl_note_of_forall (start : Array Int)
    (h : ∀ e ∈ placed, e.1.key ≠ (kind, s)) :
    (placed.foldl (note kind) start)[s.toNat]? = start[s.toNat]? := by
  induction placed generalizing start with
  | nil => rfl
  | cons e placed ih =>
    have hhere := h e List.mem_cons_self
    rw [List.foldl_cons, ih _ fun e' he' => h e' (List.mem_cons_of_mem _ he'), note]
    split
    · rename_i hkind
      refine Array.getElem?_setIfInBounds_ne fun heq => hhere ?_
      rw [Placement.key, hkind, UInt16.toNat_inj.mp heq]
    · rfl

theorem getElem?_foldl_note_of_mem (start : Array Int) (hs : s.toNat < start.size)
    (hnodup : (placed.map fun e => e.1.key).Nodup) {e : Placement × Int} (he : e ∈ placed)
    (hkey : e.1.key = (kind, s)) :
    (placed.foldl (note kind) start)[s.toNat]? = some e.2 := by
  induction placed generalizing start with
  | nil => cases he
  | cons first placed ih =>
    rw [List.map_cons, List.nodup_cons] at hnodup
    obtain ⟨hfresh, hnodup⟩ := hnodup
    rw [List.foldl_cons]
    rcases List.mem_cons.mp he with rfl | he
    -- Nothing that is noted later is for the same row.
    · rw [getElem?_foldl_note_of_forall]
      · cases hkey
        rw [note, if_pos rfl, Array.getElem?_setIfInBounds_self_of_lt hs]
      · intro e' he' hkey'
        refine hfresh (List.mem_map.mpr ⟨e', he', ?_⟩)
        rw [hkey, hkey']
    · exact ih _ (by rwa [size_note]) hnodup he

/-- A row that is placed starts at its offset. -/
theorem getElem?_offsets_of_mem (hs : s.toNat < count)
    (hnodup : (placed.map fun e => e.1.key).Nodup) {e : Placement × Int} (he : e ∈ placed)
    (hkey : e.1.key = (kind, s)) : (offsets count kind placed)[s.toNat]? = some e.2 :=
  getElem?_foldl_note_of_mem _ (by rwa [Array.size_replicate]) hnodup he hkey

/-- A state without a row has the offset from which no slot is reached. -/
theorem getElem?_offsets_of_forall (hs : s.toNat < count)
    (h : ∀ e ∈ placed, e.1.key ≠ (kind, s)) :
    (offsets count kind placed)[s.toNat]? = some unusedOffset := by
  have hfold : (placed.foldl (note kind) (Array.replicate count unusedOffset))[s.toNat]? =
      some unusedOffset := by
    rw [getElem?_foldl_note_of_forall _ h, Array.getElem?_replicate, if_pos hs]
  exact hfold

theorem size_offsets (placed : List (Placement × Int)) :
    (offsets count kind placed).size = count :=
  (size_foldl_note _).trans Array.size_replicate

/-! ## The rows of a table -/

def packedRow (b : Builder) : SymbolKind → StateId → Row
  | .terminal, s => b.actionRow s
  | .nonterminal, s => b.gotoRow s

/-- The entries of the rows that are packed are among those that are recorded. -/
theorem mem_cells_of_mem_packedRow (h : (x, action) ∈ b.packedRow kind s) :
    ⟨s, x, action⟩ ∈ b.cells kind := by
  cases kind with
  | terminal =>
    have hfull : (x, action) ∈ b.fullActionRow s := by
      simp only [packedRow, actionRow] at h
      split at h
      · exact (Row.mem_compress.mp h).1
      · exact h
    exact Row.mem_ofCells.mp hfull
  | nonterminal => exact Row.mem_ofCells.mp h

theorem mem_states (hs : s.toNat < b.stateCount) : s ∈ b.states := mem_wordsBelow hs

theorem nodup_states (h : b.stateCount ≤ maxStates) : b.states.Nodup :=
  nodup_wordsBelow (Nat.le_trans h (by decide))

/-- Every row with entries is packed, and nothing else. -/
theorem mem_packingOrder {q : Placement} : q ∈ b.packingOrder ↔
    q.state ∈ b.states ∧ q.row = b.packedRow q.kind q.state ∧ q.row ≠ [] := by
  obtain ⟨kind, s, row⟩ := q
  rw [packingOrder, List.mem_mergeSort, rows]
  simp only [List.mem_filter, List.mem_append, List.mem_map, Placement.mk.injEq,
    Bool.not_eq_true', List.isEmpty_eq_false_iff]
  constructor
  · rintro ⟨⟨s', hs', rfl, rfl, rfl⟩ | ⟨s', hs', rfl, rfl, rfl⟩, hrow⟩
    · exact ⟨hs', rfl, hrow⟩
    · exact ⟨hs', rfl, hrow⟩
  · rintro ⟨hs, rfl, hrow⟩
    refine ⟨?_, hrow⟩
    cases kind with
    | terminal => exact .inl ⟨s, hs, rfl, rfl, rfl⟩
    | nonterminal => exact .inr ⟨s, hs, rfl, rfl, rfl⟩

/-- No row is packed twice. -/
theorem nodup_keys (h : b.stateCount ≤ maxStates) :
    (b.packingOrder.map Placement.key).Nodup := by
  have hperm := (List.mergeSort_perm b.rows fun p q => q.row.length ≤ p.row.length).map
    Placement.key
  refine hperm.nodup_iff.mpr (List.Nodup.sublist (List.filter_sublist.map _) ?_)
  rw [List.map_append, List.map_map, List.map_map]
  have hkind : ∀ (kind : SymbolKind) (row : StateId → Row),
      (b.states.map (Placement.key ∘ fun s => ⟨kind, s, row s⟩)).Nodup := by
    intro kind row
    refine List.Nodup.map_on ?_ (nodup_states h)
    intro s _ s' _ heq
    cases heq
    rfl
  refine List.nodup_append.mpr ⟨hkind _ _, hkind _ _, ?_⟩
  intro k hk k' hk' heq
  obtain ⟨s, -, rfl⟩ := List.mem_map.mp hk
  obtain ⟨s', -, rfl⟩ := List.mem_map.mp hk'
  cases heq

def placements (b : Builder) : List (Placement × Int) :=
  b.packingOrder.zip (Packing.ofRows (b.packingOrder.map fun q => b.slots q.row)).offsets.reverse

/-- All rows are packed where they are said to start. -/
theorem holds_placements (hrows : ∀ kind s, Row.Ascending (b.packedRow kind s)) :
    Packing.Holds (Packing.ofRows (b.packingOrder.map fun q => b.slots q.row))
      (b.placements.map fun e => (b.slots e.1.row, e.2)) ∧
      b.placements.map Prod.fst = b.packingOrder := by
  have hascending : ∀ row ∈ b.packingOrder.map (fun q => b.slots q.row),
      Packing.Ascending row := by
    intro row hrow
    obtain ⟨q, hq, rfl⟩ := List.mem_map.mp hrow
    obtain ⟨-, hrow, -⟩ := mem_packingOrder.mp hq
    rw [hrow]
    exact ascending_slots b (hrows q.kind q.state)
  obtain ⟨hholds, hlength⟩ := Packing.holds_ofRows hascending
  rw [List.length_map] at hlength
  rw [List.zip_map_left] at hholds
  refine ⟨hholds, List.map_fst_zip ?_⟩
  rw [List.length_reverse, hlength]

/-- A slot of a row that is packed is an entry of that row. -/
theorem exists_entry_of_placed (horder : b.placements.map Prod.fst = b.packingOrder)
    {slots : List Slot} {slot : Slot}
    (hmem : (slots, offset) ∈ b.placements.map fun e => (b.slots e.1.row, e.2))
    (hslot : slot ∈ slots) :
    ∃ kind s action, (slot.owner, action) ∈ b.packedRow kind s ∧
      action.encode b.rules.size = slot.code := by
  obtain ⟨e, he, heq⟩ := List.mem_map.mp hmem
  cases heq
  obtain ⟨action, haction, hcode⟩ := mem_slots.mp hslot
  have hplaced : e.1 ∈ b.packingOrder := horder ▸ List.mem_map_of_mem he
  rw [(mem_packingOrder.mp hplaced).2.1] at haction
  exact ⟨_, _, action, haction, hcode⟩

/-- From the offset of a state, the packed arrays have its row and nothing else. -/
theorem entry?_of_parts {t : PackedTables} (ht : t.parts = b.parts)
    (hrows : ∀ kind s, Row.Ascending (b.packedRow kind s)) (hcount : b.stateCount ≤ maxStates)
    (kind : SymbolKind) (hs : s.toNat < b.stateCount) :
    ∃ offset, (offsets b.stateCount kind b.placements)[s.toNat]? = some offset ∧
      ∀ x, x ≠ freeSlot → t.entry? offset x =
        ((b.packedRow kind s).lookup x).map (Action.encode · b.rules.size) := by
  obtain ⟨hholds, hfst⟩ := holds_placements hrows
  have hnodup : (b.placements.map fun e => e.1.key).Nodup := by
    have hkeys := nodup_keys hcount
    rwa [← hfst, List.map_map] at hkeys
  by_cases hempty : b.packedRow kind s = []
  -- A row without entries has not been packed.
  · refine ⟨unusedOffset, getElem?_offsets_of_forall hs ?_, ?_⟩
    · intro e he hkey
      have hmem : e.1 ∈ b.packingOrder := hfst ▸ List.mem_map_of_mem he
      obtain ⟨-, hrow, hne⟩ := mem_packingOrder.mp hmem
      cases hkey
      exact hne (hrow.trans hempty)
    · intro x hx
      rw [entry?_unusedOffset, hempty]
      rfl
  · have hmem : Placement.mk kind s (b.packedRow kind s) ∈ b.packingOrder :=
      mem_packingOrder.mpr ⟨mem_states hs, rfl, hempty⟩
    rw [← hfst] at hmem
    obtain ⟨⟨q, offset⟩, he, rfl⟩ := List.mem_map.mp hmem
    refine ⟨offset, getElem?_offsets_of_mem hs hnodup he rfl, ?_⟩
    intro x hx
    apply Option.ext
    intro code
    rw [hholds.entry?_eq_some_iff (by rw [ht]; rfl) (by rw [ht]; rfl)
      (List.mem_map.mpr ⟨_, he, rfl⟩) hx, mem_slots, Option.map_eq_some_iff]
    simp only [Row.lookup_eq_some_iff (hrows kind s)]

end Builder

end ShiftReduce.Tables
