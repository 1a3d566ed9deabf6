import ShiftReduce.Proofs.Outcomes
import ShiftReduce.Proofs.Tables.Building

/-!
# Lookups stay in the table

The arrays of a table are checked once. From then on a lookup in a state of the table
answers with a state of the table, with a rule of it, or with neither
(`PackedTables.closed_of_ne`).

The check passes over the slots that belong to no row, and the mark of these slots is
itself a symbol id. So for this one symbol a lookup may meet a code that was never
checked, and the table is closed only if these codes are sound as well
(`PackedTables.closed_iff`). Tables that are built have no code there, and are closed for
every id (`Records.closed_of_build`).
-/

namespace ShiftReduce

open Tables

variable {t : PackedTables} {s : StateId} {x : SymbolId} {code : Int16} {rule : RuleId}

/-- Whether an action names nothing but a state that can be entered, or a rule. -/
def Action.Defined (stateCount ruleCount : Nat) : Action → Prop
  | .shift state => 0 < state.toNat ∧ state.toNat < stateCount
  | .reduce rule => rule.toNat < ruleCount
  | .accept => True
  | .error => True

/-- The start state is not entered by a code. -/
theorem Action.pos_of_decode {ruleCount : Nat} {state : StateId}
    (h : Action.decode code ruleCount = .shift state) : 0 < state.toNat := by
  unfold Action.decode at h
  by_cases hpos : 0 < code
  · rw [if_pos hpos] at h
    cases h
    rw [Nat.pos_iff_ne_zero]
    intro hzero
    have hword : code.toUInt16 = 0 := UInt16.toNat_inj.mp hzero
    have hcode : code = 0 := by simpa using congrArg UInt16.toInt16 hword
    subst hcode
    exact absurd hpos (by decide)
  · simp only [hpos, if_false] at h
    split at h
    · cases h
    · split at h <;> cases h

/-- The check finds no fault with a code if what it stands for is defined. -/
theorem Tables.Parts.codeFault?_eq_none_iff (p : Parts) (code : Int16) :
    p.codeFault? code = none ↔
      (Action.decode code p.ruleCount).Defined p.stateCount p.ruleCount := by
  unfold Parts.codeFault?
  cases hcode : Action.decode code p.ruleCount with
  | shift state =>
    have hpos := Action.pos_of_decode hcode
    simp [Action.Defined, hpos]
  | reduce rule => simp [Action.Defined]
  | accept => simp [Action.Defined]
  | error => simp [Action.Defined]

/-! ## What the check has established -/

namespace Tables.Parts

variable {p : Parts}

theorem expectLength_eq_none {part : PartName} {expected actual : Nat}
    (h : expectLength part expected actual = none) : expected = actual := by
  unfold expectLength at h
  split at h
  · assumption
  · cases h

/-- What holds of arrays in which nothing is wrong. -/
structure Sound (p : Parts) : Prop where
  gotoOffsets_size : p.gotoOffsets.size = p.stateCount
  owners_size : p.owners.size = p.codes.size
  defaults_size : p.compressed = true → p.defaults.size = p.stateCount
  stateCount_pos : 0 < p.stateCount
  stateCount_le : p.stateCount ≤ maxStates
  ruleCount_le : p.ruleCount ≤ maxRules
  terminalCount_pos : 0 < p.terminalCount
  terminalCount_le : p.terminalCount ≤ p.symbolCount
  errorSymbol_lt : ∀ x, p.errorSymbol = some x → x < p.symbolCount
  lhs_lt : ∀ rule ∈ p.rules, rule.lhs < p.symbolCount
  liveCodes : ∀ code ∈ p.liveCodes, p.codeFault? code = none

theorem lt_of_isNonterminal (h : p.isNonterminal x = true) : x < p.symbolCount := by
  simp only [isNonterminal, Bool.and_eq_true, decide_eq_true_eq] at h
  exact h.2

theorem lt_of_errorSymbolFault? (h : p.errorSymbolFault? = none) (hx : p.errorSymbol = some x) :
    x < p.symbolCount := by
  simp only [errorSymbolFault?, hx] at h
  split at h
  · exact lt_of_isNonterminal ‹_›
  · cases h

theorem lt_of_lhsFault? (h : p.lhsFault? = none) {rule : Rule} (hrule : rule ∈ p.rules) :
    rule.lhs < p.symbolCount := by
  obtain ⟨i, hi, hget⟩ := Array.mem_iff_getElem.mp hrule
  have hmem : (rule, i) ∈ p.rules.toList.zipIdx := by
    rw [List.mem_zipIdx_iff_getElem?, Array.getElem?_toList, Array.getElem?_eq_getElem hi, hget]
  have hnone := List.findSome?_eq_none_iff.mp h _ hmem
  dsimp only at hnone
  split at hnone
  · exact lt_of_isNonterminal ‹_›
  · cases hnone

theorem sound_of_fault? (h : p.fault? = none) : p.Sound := by
  simp only [fault?, lengthFault?, countFault?, Option.orElse_eq_orElse, Option.orElse_eq_or,
    Option.or_eq_none_iff] at h
  obtain ⟨⟨hgotos, howners, hdefaults⟩, hcounts, herror, hlhs, hcodes⟩ := h
  split at hcounts
  · cases hcounts
  · rename_i hstates
    split at hcounts
    · cases hcounts
    · rename_i hrules
      split at hcounts
      · cases hcounts
      · rename_i hterminals
        rw [not_or, UInt16.not_lt] at hterminals
        refine ⟨(expectLength_eq_none hgotos).symm, (expectLength_eq_none howners).symm, ?_,
          by omega, by omega, by omega, UInt16.pos_iff_ne_zero.mpr hterminals.1, hterminals.2,
          fun x => lt_of_errorSymbolFault? herror, fun rule => lt_of_lhsFault? hlhs,
          List.findSome?_eq_none_iff.mp hcodes⟩
        intro hcompressed
        rw [if_pos hcompressed] at hdefaults
        exact (expectLength_eq_none hdefaults).symm

/-- A slot that belongs to a row has a live code. -/
theorem mem_liveCodes {x : SymbolId} {code : Int16} {i : Nat} (howner : p.owners[i]? = some x)
    (hcode : p.codes[i]? = some code) (hx : x ≠ freeSlot) : code ∈ p.liveCodes := by
  refine List.mem_append_left _ (List.mem_filterMap.mpr ⟨(x, code), ?_, if_neg hx⟩)
  refine List.mem_iff_getElem?.mpr ⟨i, ?_⟩
  rw [List.getElem?_zip_eq_some, Array.getElem?_toList, Array.getElem?_toList]
  exact ⟨howner, hcode⟩

end Tables.Parts

/-! ## Closed tables -/

namespace PackedTables

/-- Whether the lookups of a symbol answer with what is defined. -/
def Closed (t : PackedTables) (x : SymbolId) : Prop :=
  ∀ s : StateId, s.toNat < t.stateCount →
    (∃ action, t.action s x = .ok action ∧ action.Defined t.stateCount t.ruleCount) ∧
      ∃ action, t.goto s x = .ok action ∧ action.Defined t.stateCount t.ruleCount

theorem parts_sound (t : PackedTables) : t.parts.Sound := Parts.sound_of_fault? t.sound

theorem startState_lt (t : PackedTables) : startState.toNat < t.stateCount :=
  t.parts_sound.stateCount_pos

/-- A code that is met from an offset is in a slot that has the symbol for its owner. -/
theorem entry?_eq_some {offset : Int} (h : t.entry? offset x = some code) :
    ∃ i : Nat, t.parts.owners[i]? = some x ∧ t.parts.codes[i]? = some code := by
  unfold entry? at h
  simp only at h
  split at h
  · cases h
  · split at h
    · rename_i howner
      exact ⟨_, howner, h⟩
    · cases h

theorem exists_item {α : Type} (items : Array α) {index : UInt16} (h : index.toNat < items.size) :
    ∃ a, item items index = .ok a ∧ items[index.toNat]? = some a := by
  refine ⟨items[index.toNat], ?_, Array.getElem?_eq_getElem h⟩
  rw [item, Array.getElem?_eq_getElem h]

theorem lt_of_item {α : Type} {items : Array α} {index : UInt16} {a : α}
    (h : item items index = .ok a) : index.toNat < items.size := by
  unfold item at h
  split at h
  · rename_i x hx
    exact (Array.getElem?_eq_some_iff.mp hx).1
  · cases h

/-- Only the states of the table have actions. -/
theorem lt_of_action {action : Action} (h : t.action s x = .ok action) :
    s.toNat < t.stateCount := by
  obtain ⟨code, hcode, -⟩ := bind_eq_ok.mp h
  obtain ⟨offset, hoffset, -⟩ := bind_eq_ok.mp hcode
  exact lt_of_item hoffset

/-- Only the states of the table have gotos. -/
theorem lt_of_goto {action : Action} (h : t.goto s x = .ok action) : s.toNat < t.stateCount := by
  obtain ⟨code, hcode, -⟩ := bind_eq_ok.mp h
  obtain ⟨offset, hoffset, -⟩ := bind_eq_ok.mp hcode
  have hlt := lt_of_item hoffset
  rw [t.parts_sound.gotoOffsets_size] at hlt
  exact hlt

/-- A state of the table has an offset for each of its rows. -/
theorem exists_offsets (hs : s.toNat < t.stateCount) :
    (∃ offset, item t.parts.actionOffsets s = .ok offset) ∧
      ∃ offset, item t.parts.gotoOffsets s = .ok offset := by
  obtain ⟨offset, haction, -⟩ := exists_item t.parts.actionOffsets hs
  have hgotos : s.toNat < t.parts.gotoOffsets.size := t.parts_sound.gotoOffsets_size ▸ hs
  obtain ⟨offset', hgoto, -⟩ := exists_item _ hgotos
  exact ⟨⟨offset, haction⟩, offset', hgoto⟩

/-- The code for symbols without an entry is checked like the others. -/
theorem exists_default (hs : s.toNat < t.stateCount) (hcompressed : t.compressed = true) :
    ∃ code, item t.parts.defaults s = .ok code ∧ t.parts.codeFault? code = none := by
  have hsize : s.toNat < t.parts.defaults.size := by
    rw [t.parts_sound.defaults_size hcompressed]
    exact hs
  obtain ⟨code, hcode, hget⟩ := exists_item _ hsize
  refine ⟨code, hcode, t.parts_sound.liveCodes code (List.mem_append_right _ ?_)⟩
  exact List.mem_iff_getElem?.mpr ⟨s.toNat, by rw [Array.getElem?_toList, hget]⟩

theorem codeFault?_zero (p : Parts) : p.codeFault? 0 = none := by
  rw [p.codeFault?_eq_none_iff]
  trivial

theorem goto_eq {offset : Int} (hoffset : item t.parts.gotoOffsets s = .ok offset)
    (x : SymbolId) : t.goto s x = .ok (.decode ((t.entry? offset x).getD 0) t.ruleCount) := by
  rw [goto, gotoCode, hoffset]
  rfl

theorem action_of_entry {offset : Int} (hoffset : item t.parts.actionOffsets s = .ok offset)
    (hentry : t.entry? offset x = some code) : t.action s x = .ok (.decode code t.ruleCount) := by
  rw [action, actionCode, hoffset, ok_bind, hentry]
  rfl

/-- Without an entry of its own a symbol has the default of the state, or the error
action. -/
theorem exists_action_of_none {offset : Int} (hoffset : item t.parts.actionOffsets s = .ok offset)
    (hs : s.toNat < t.stateCount) (hentry : t.entry? offset x = none) :
    ∃ code, t.action s x = .ok (.decode code t.ruleCount) ∧ t.parts.codeFault? code = none := by
  simp only [action, actionCode, hoffset, ok_bind, hentry]
  by_cases hcompressed : t.compressed = true
  · obtain ⟨code, hcode, hfault⟩ := exists_default hs hcompressed
    exact ⟨code, by simp [hcompressed, hcode], hfault⟩
  · exact ⟨0, by simp [hcompressed], codeFault?_zero _⟩

/-- A symbol is closed if and only if no code is at fault that its lookups meet. -/
theorem closed_iff (t : PackedTables) (x : SymbolId) :
    t.Closed x ↔ ∀ s offset code,
      item t.parts.actionOffsets s = .ok offset ∨ item t.parts.gotoOffsets s = .ok offset →
      t.entry? offset x = some code → t.parts.codeFault? code = none := by
  constructor
  · intro h s offset code hoffset hentry
    rw [Parts.codeFault?_eq_none_iff]
    -- A state with an offset of either kind is one of the table.
    have hs : s.toNat < t.stateCount := by
      rcases hoffset with hoffset | hoffset
      · exact lt_of_item hoffset
      · rw [stateCount, ← t.parts_sound.gotoOffsets_size]
        exact lt_of_item hoffset
    obtain ⟨⟨found, haction, hfound⟩, found', hgoto, hfound'⟩ := h s hs
    rcases hoffset with hoffset | hoffset
    · rw [action_of_entry hoffset hentry] at haction
      cases haction
      exact hfound
    · rw [goto_eq hoffset, hentry] at hgoto
      cases hgoto
      exact hfound'
  · intro h s hs
    obtain ⟨⟨offset, hoffset⟩, offset', hoffset'⟩ := exists_offsets hs
    constructor
    · cases hentry : t.entry? offset x with
      | some code =>
        have hfault := h s offset code (.inl hoffset) hentry
        exact ⟨_, action_of_entry hoffset hentry, (Parts.codeFault?_eq_none_iff _ _).mp hfault⟩
      | none =>
        obtain ⟨code, haction, hfault⟩ := exists_action_of_none hoffset hs hentry
        exact ⟨_, haction, (Parts.codeFault?_eq_none_iff _ _).mp hfault⟩
    · refine ⟨_, goto_eq hoffset' x, (Parts.codeFault?_eq_none_iff _ _).mp ?_⟩
      cases hentry : t.entry? offset' x with
      | some code => exact h s offset' code (.inr hoffset') hentry
      | none => exact codeFault?_zero _

/-- A table is closed for every symbol but the mark of the slots that belong to no row. -/
theorem closed_of_ne (t : PackedTables) (hx : x ≠ freeSlot) : t.Closed x := by
  rw [closed_iff]
  intro s offset code _ hentry
  obtain ⟨i, howner, hcode⟩ := entry?_eq_some hentry
  exact t.parts_sound.liveCodes code (Parts.mem_liveCodes howner hcode hx)

/-- A table that is closed for this mark is closed for every symbol. -/
theorem closed_of_freeSlot (h : t.Closed freeSlot) (x : SymbolId) : t.Closed x := by
  by_cases hx : x = freeSlot
  · exact hx ▸ h
  · exact t.closed_of_ne hx

/-- A table of one state, with a slot that belongs to no row and yet holds a code. -/
def strayCode : PackedTables where
  parts :=
    { codes := #[5]
      owners := #[freeSlot]
      actionOffsets := #[-65535]
      gotoOffsets := #[unusedOffset]
      defaults := #[]
      rules := #[]
      terminalCount := 1
      symbolCount := 1
      errorSymbol := none
      compressed := false }
  sound := by decide +kernel

/-- The check lets the code pass, and the lookup of the mark shifts to a state that the
table does not have. -/
theorem strayCode_not_closed : strayCode.action startState freeSlot = .ok (.shift 5) ∧
    strayCode.stateCount = 1 ∧ ¬strayCode.Closed freeSlot := by
  have haction : strayCode.action startState freeSlot = .ok (.shift 5) := by decide +kernel
  refine ⟨haction, rfl, ?_⟩
  intro hclosed
  obtain ⟨⟨action, haction', hdefined⟩, -⟩ := hclosed startState (by decide)
  rw [haction] at haction'
  cases haction'
  exact absurd hdefined.2 (by decide)

end PackedTables

/-! ## Tables that are built -/

namespace Tables.Builder

variable {terminalCount symbolCount : UInt16} {ds : List Declaration} {b : Builder}
  {kind : SymbolKind} {action : Action}

/-- The symbols of the rows are symbols of the grammar. -/
theorem Records.lt_of_mem_packedRow (h : Records terminalCount symbolCount ds b)
    (hsymbols : terminalCount ≤ symbolCount) (hmem : (x, action) ∈ b.packedRow kind s) :
    x < symbolCount := by
  have hkind := h.isOfKind kind _ (mem_cells_of_mem_packedRow hmem)
  cases kind with
  | terminal =>
    simp only [Builder.isOfKind, h.terminalCount_eq, decide_eq_true_eq] at hkind
    exact UInt16.lt_of_lt_of_le hkind hsymbols
  | nonterminal =>
    simp only [Builder.isOfKind, h.symbolCount_eq, Bool.and_eq_true, decide_eq_true_eq] at hkind
    exact hkind.2

/-- A place without an owner has the code of the error action. -/
theorem code_of_freeSlot {p : Packing} {placed : List (List Slot × Int)} {i : Nat}
    (h : p.Holds placed) (hslots : ∀ row offset, (row, offset) ∈ placed →
      ∀ slot ∈ row, slot.owner ≠ freeSlot)
    (howner : p.owners[i]? = some freeSlot) (hcode : p.codes[i]? = some code) : code = 0 := by
  simp only [Packing.owners, Packing.codes, Array.getElem?_map, Option.map_eq_some_iff]
    at howner hcode
  obtain ⟨place, hplace, howner⟩ := howner
  obtain ⟨place', hplace', rfl⟩ := hcode
  rw [hplace] at hplace'
  cases hplace'
  cases place with
  | none => rfl
  | some slot =>
    obtain ⟨row, offset, hmem, hslot, -⟩ := h.owned i slot (by rw [SparseArray.get?, hplace]; rfl)
    exact absurd howner (hslots row offset hmem slot hslot)

/-- The slots of the rows that are packed have owners. -/
theorem Records.owner_ne_freeSlot (h : Records terminalCount symbolCount ds b)
    (hsymbols : terminalCount ≤ symbolCount)
    (horder : b.placements.map Prod.fst = b.packingOrder) :
    ∀ row offset, (row, offset) ∈ b.placements.map (fun e => (b.slots e.1.row, e.2)) →
      ∀ slot ∈ row, slot.owner ≠ freeSlot := by
  intro row offset hmem slot hslot
  obtain ⟨kind, s, action, haction, -⟩ := exists_entry_of_placed horder hmem hslot
  exact ne_freeSlot_of_lt (h.lt_of_mem_packedRow hsymbols haction)

/-- The mark of the slots that belong to no row meets no code but that of the error action in a
table that is built. -/
theorem Records.code_of_entry?_freeSlot (h : Records terminalCount symbolCount ds b)
    (hbuild : b.build = .ok t) {offset : Int} (hentry : t.entry? offset freeSlot = some code) :
    code = 0 := by
  have ht := (build_eq_ok hbuild).1
  have hsymbols : terminalCount ≤ symbolCount := by
    have hle := t.parts_sound.terminalCount_le
    rw [ht, show b.parts.terminalCount = terminalCount from h.terminalCount_eq,
      show b.parts.symbolCount = symbolCount from h.symbolCount_eq] at hle
    exact hle
  obtain ⟨hholds, horder⟩ := holds_placements h.ascending_packedRow
  obtain ⟨i, howner, hcode⟩ := PackedTables.entry?_eq_some hentry
  rw [ht] at howner hcode
  exact code_of_freeSlot hholds (h.owner_ne_freeSlot hsymbols horder) howner hcode

/-- A table that is built is closed for every id, also for those that no grammar can
have. -/
theorem Records.closed_of_build (h : Records terminalCount symbolCount ds b)
    (hbuild : b.build = .ok t) (x : SymbolId) : t.Closed x := by
  by_cases hx : x = freeSlot
  · subst hx
    rw [PackedTables.closed_iff]
    intro s offset code _ hentry
    rw [h.code_of_entry?_freeSlot hbuild hentry]
    exact PackedTables.codeFault?_zero _
  · exact t.closed_of_ne hx

end Tables.Builder

/-! ## Lookups of a program -/

/-- The lookups of a program that is in given states only and asks for given symbols only: they
lead to such states, to rules that exist and nowhere else, unless they fail in an expected way.
The symbols that the table itself brings in are among the given ones. -/
structure PackedTables.Leads (t : PackedTables) (A : SymbolId → Prop) (D : StateId → Prop)
    (fails : Breach → Prop) : Prop where
  start : D startState
  terminal : ∀ x : SymbolId, x.toNat < t.terminalCount → A x
  errorSymbol : ∀ x, t.errorSymbol = some x → A x
  action : ∀ s x, D s → A x → Returns fails
    (fun action => (∀ target, action = .shift target → D target) ∧
      ∀ rule, action = .reduce rule → Returns fails (fun info => A info.lhs) (t.rule rule))
    (t.action s x)
  goto : ∀ s x, D s → A x →
    Returns fails (fun action => ∀ target, action = .shift target → D target) (t.goto s x)
  hasLookahead : ∀ s x, D s → Returns fails (fun _ => True) (t.hasLookahead s x)

namespace PackedTables

variable {A : SymbolId → Prop} {D : StateId → Prop} {fails : Breach → Prop}

/-- The end of input is one of the terminals. -/
theorem Leads.eof (h : t.Leads A D fails) : A eof :=
  h.terminal ShiftReduce.eof (UInt16.lt_iff_toNat_lt.mp t.parts_sound.terminalCount_pos)

/-- The symbols of the grammar are closed. -/
theorem closed_of_lt (t : PackedTables) (h : x < t.parts.symbolCount) : t.Closed x :=
  t.closed_of_ne (Builder.ne_freeSlot_of_lt h)

/-- A program that asks for closed symbols only is in states of the table, and no lookup
fails. -/
theorem leads_closed (t : PackedTables) :
    t.Leads t.Closed (fun s => s.toNat < t.stateCount) (fun _ => False) where
  start := t.startState_lt
  terminal x hx := t.closed_of_lt
    (UInt16.lt_of_lt_of_le (UInt16.lt_iff_toNat_lt.mpr hx) t.parts_sound.terminalCount_le)
  errorSymbol x hx := t.closed_of_lt (t.parts_sound.errorSymbol_lt x hx)
  action s x hs hx := by
    obtain ⟨⟨action, haction, hdefined⟩, -⟩ := hx s hs
    refine .of_exists ⟨action, haction, ?_, ?_⟩
    · rintro target rfl
      exact hdefined.2
    · rintro rule rfl
      obtain ⟨info, hinfo, hget⟩ := exists_item t.parts.rules hdefined
      have hlhs := t.parts_sound.lhs_lt info (Array.mem_of_getElem? hget)
      exact .of_exists ⟨info, hinfo, t.closed_of_lt hlhs⟩
  goto s x hs hx := by
    obtain ⟨-, action, hgoto, hdefined⟩ := hx s hs
    refine .of_exists ⟨action, hgoto, ?_⟩
    rintro target rfl
    exact hdefined.2
  hasLookahead s x hs := by
    obtain ⟨⟨offset, hoffset⟩, -⟩ := exists_offsets hs
    rw [PackedTables.hasLookahead, hoffset, ok_bind]
    cases t.entry? offset x with
    | some code => exact trivial
    | none => exact trivial

/-- An item is missing only past the end of its array. -/
theorem returns_item {α : Type} (items : Array α) (index : UInt16) :
    Returns (· = .indexOutOfBounds) (fun _ => True) (item items index) := by
  unfold item
  split
  · exact trivial
  · exact rfl

/-- In any tables and for any symbol, a lookup fails only past the end of an array. -/
theorem leads_anywhere (t : PackedTables) :
    t.Leads (fun _ => True) (fun _ => True) (· = .indexOutOfBounds) where
  start := trivial
  terminal _ _ := trivial
  errorSymbol _ _ := trivial
  action s x _ _ := by
    have hrule : ∀ rule, Returns (· = .indexOutOfBounds) (fun _ => True) (t.rule rule) :=
      fun rule => returns_item _ _
    rw [PackedTables.action, actionCode]
    apply Returns.bind (P := fun _ => True)
    · apply (returns_item _ _).bind
      intro offset _ _
      split
      · exact trivial
      · split
        · exact returns_item _ _
        · exact trivial
    · intro code _ _
      exact ⟨fun _ _ => trivial, fun rule _ => hrule rule⟩
  goto s x _ _ := by
    rw [PackedTables.goto, gotoCode]
    apply Returns.bind (P := fun _ => True)
    · apply (returns_item _ _).bind
      intro offset _ _
      exact trivial
    · intro code _ _
      exact fun _ _ => trivial
  hasLookahead s x _ := by
    apply (returns_item _ _).bind
    intro offset _ _
    split
    · exact trivial
    · exact trivial

end PackedTables

end ShiftReduce
