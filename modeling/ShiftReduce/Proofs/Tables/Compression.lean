import ShiftReduce.Proofs.Tables.Closure

/-!
# Compressed and plain tables

The same declarations make a plain table and a compressed one. A compressed table has other
rows, so it is packed otherwise, and its states reduce where those of the plain table have the
error action. But a table is built of the ones just if it is built of the others
(`Builder.builds_iff`), and what the plain table does other than the error action the
compressed one does as well (`Builder.extends_of_builds`).
-/

namespace ShiftReduce

open Tables

variable {t t' : PackedTables} {s : StateId} {x : SymbolId} {code : Int16} {rule : RuleId}
  {info : Rule}

/-! ## Tables that do more -/

/-- A table that does what another one does, wherever that has an action other than error, and
that follows the gotos of the same rules in the same way. -/
structure PackedTables.Extends (t t' : PackedTables) : Prop where
  action_eq : ∀ s x, t.action s x ≠ .ok .error → t'.action s x = t.action s x
  rule_eq : ∀ rule, t'.rule rule = t.rule rule
  goto_eq : ∀ s rule info, t.rule rule = .ok info → t'.goto s info.lhs = t.goto s info.lhs

/-- The rules of a table produce nonterminals. -/
theorem PackedTables.lhs_lt (h : t.rule rule = .ok info) : info.lhs < t.parts.symbolCount := by
  have hlhs : t.parts.lhsFault? = none := by
    have hsound := t.sound
    simp only [Parts.fault?, Option.orElse_eq_orElse, Option.orElse_eq_or,
      Option.or_eq_none_iff] at hsound
    exact hsound.2.2.2.1
  rw [Parts.lhsFault?, List.findSome?_eq_none_iff] at hlhs
  have hmem : (info, rule.toNat) ∈ t.parts.rules.toList.zipIdx := by
    rw [List.mem_zipIdx_iff_getElem?, Array.getElem?_toList]
    unfold PackedTables.rule item at h
    split at h
    · rename_i found hfound
      cases h
      exact hfound
    · cases h
  have hkind := hlhs _ hmem
  dsimp only at hkind
  split at hkind
  · rename_i hnonterminal
    rw [Parts.isNonterminal, Bool.and_eq_true, decide_eq_true_eq] at hnonterminal
    exact of_decide_eq_true hnonterminal.2
  · cases hkind

/-- Beyond the states of a table nothing can be looked up. -/
theorem PackedTables.item_eq_error {α : Type} {items : Array α} {index : UInt16}
    (h : items.size ≤ index.toNat) : item items index = .error .indexOutOfBounds := by
  rw [item, Array.getElem?_eq_none h]

theorem PackedTables.action_of_le (h : t.stateCount ≤ s.toNat) (x : SymbolId) :
    t.action s x = .error .indexOutOfBounds := by
  rw [action, actionCode, item_eq_error h]
  rfl

theorem PackedTables.goto_of_le (h : t.stateCount ≤ s.toNat) (x : SymbolId) :
    t.goto s x = .error .indexOutOfBounds := by
  rw [goto, gotoCode, item_eq_error (t.parts_sound.gotoOffsets_size ▸ h)]
  rfl

namespace Tables.Builder

variable {terminalCount symbolCount : UInt16} {ds : List Declaration} {b : Builder}
  {kind : SymbolKind} {c : Cell} {on on' : Bool}

/-! ## The parts of a table -/

theorem stateCount_parts (b : Builder) : b.parts.stateCount = b.stateCount := size_offsets _

/-- What is recorded is defined in the table. -/
theorem Records.defined_of_mem (h : Records terminalCount symbolCount ds b)
    (hstates : b.stateCount ≤ maxStates) (hdefined : ∀ c ∈ b.actions, b.undefinedRule? c = none)
    (hc : c ∈ b.cells kind) : c.action.Defined b.stateCount b.rules.size := by
  have hencodable := h.encodable hstates hdefined hc
  have hnamed := h.named kind c hc
  cases haction : c.action with
  | shift target =>
    rw [haction] at hencodable
    rw [statesNamed, haction] at hnamed
    simp only [Nat.max_le] at hnamed
    exact ⟨hencodable.1, by omega⟩
  | reduce rule =>
    rw [haction] at hencodable
    exact hencodable
  | accept => trivial
  | error => trivial

/-- The code of an action that can be read back and is defined has no fault. -/
theorem codeFault?_encode {action : Action} (hrules : b.rules.size ≤ maxRules)
    (hencodable : action.Encodable b.rules.size)
    (hdefined : action.Defined b.stateCount b.rules.size) :
    b.parts.codeFault? (action.encode b.rules.size) = none := by
  rw [Parts.codeFault?_eq_none_iff, stateCount_parts]
  show (Action.decode _ b.rules.size).Defined _ b.rules.size
  rw [Action.decode_encode hencodable hrules]
  exact hdefined

/-- No code of a table that is put together is at fault. -/
theorem Records.codeFault?_liveCodes (h : Records terminalCount symbolCount ds b)
    (hrules : b.rules.size ≤ maxRules) (hstates : b.stateCount ≤ maxStates)
    (hdefined : ∀ c ∈ b.actions, b.undefinedRule? c = none) :
    ∀ code ∈ b.parts.liveCodes, b.parts.codeFault? code = none := by
  have hrecorded : ∀ {kind s x action}, ⟨s, x, action⟩ ∈ b.cells kind →
      b.parts.codeFault? (action.encode b.rules.size) = none := by
    intro kind s x action hc
    exact codeFault?_encode hrules (h.encodable hstates hdefined hc)
      (h.defined_of_mem hstates hdefined hc)
  intro code hcode
  rcases List.mem_append.mp hcode with hslot | hdefault
  -- The code of a slot is that of an entry of some row.
  · obtain ⟨⟨owner, code'⟩, hmem, hlive⟩ := List.mem_filterMap.mp hslot
    dsimp only at hlive
    split at hlive
    · cases hlive
    · rename_i howned
      cases hlive
      obtain ⟨i, hi⟩ := List.mem_iff_getElem?.mp hmem
      rw [List.getElem?_zip_eq_some, Array.getElem?_toList, Array.getElem?_toList] at hi
      obtain ⟨howner, hcode⟩ := hi
      obtain ⟨hholds, horder⟩ := holds_placements h.ascending_packedRow
      have hplace := (Packing.read_eq_some_iff howned).mp ((if_pos howner).trans hcode)
      obtain ⟨slots, offset, hplaced, hslot, -⟩ := hholds.owned i _ hplace
      obtain ⟨kind, s, action, haction, rfl⟩ := exists_entry_of_placed horder hplaced hslot
      exact hrecorded (mem_cells_of_mem_packedRow haction)
  -- A default is a reduction that is recorded, or the error action.
  · have hdefaults : code ∈ b.defaults.toList := hdefault
    unfold defaults at hdefaults
    split at hdefaults
    · rename_i hcompressed
      rw [List.toList_toArray] at hdefaults
      obtain ⟨s, -, rfl⟩ := List.mem_map.mp hdefaults
      have hdefault := h.isDefault s
      rw [if_pos hcompressed] at hdefault
      have hencodable := h.encodable_of_isDefault hstates hdefined hdefault
      refine codeFault?_encode hrules hencodable ?_
      cases haction : (b.fullActionRow s).defaultAction with
      | reduce rule =>
        rw [haction] at hencodable
        exact hencodable
      | error => trivial
      | shift target =>
        rw [haction] at hdefault
        exact hdefault.elim
      | accept => trivial
    · cases hdefaults

/-! ## Building alike -/

/-- The arrays that are put together agree in length. -/
theorem lengthFault?_parts (b : Builder) : b.parts.lengthFault? = none := by
  have hself : ∀ {part n m}, n = m → Parts.expectLength part n m = none := fun h => if_pos h
  have hgotos : b.parts.stateCount = b.parts.gotoOffsets.size :=
    (stateCount_parts b).trans (size_offsets _).symm
  have howners : b.parts.codes.size = b.parts.owners.size :=
    Array.size_map.trans Array.size_map.symm
  have hdefaults : b.compressed = true → b.parts.stateCount = b.parts.defaults.size := by
    intro hcompressed
    show _ = b.defaults.size
    rw [stateCount_parts, defaults, if_pos hcompressed, List.size_toArray, List.length_map, states,
      List.length_map, List.length_range]
  rw [Parts.lengthFault?, hself hgotos, hself howners]
  by_cases hcompressed : b.parts.compressed = true
  · rw [if_pos hcompressed, hself (hdefaults hcompressed)]
    rfl
  · rw [if_neg hcompressed]
    rfl

/-- Only the counts, the error symbol and the rules can be at fault in arrays that are put
together. -/
theorem Records.fault?_parts_eq_none_iff (h : Records terminalCount symbolCount ds b)
    (hrules : b.rules.size ≤ maxRules) (hstates : b.stateCount ≤ maxStates)
    (hdefined : ∀ c ∈ b.actions, b.undefinedRule? c = none) :
    b.parts.fault? = none ↔ b.parts.countFault? = none ∧ b.parts.errorSymbolFault? = none ∧
      b.parts.lhsFault? = none := by
  have hcodes : b.parts.liveCodes.findSome? b.parts.codeFault? = none :=
    List.findSome?_eq_none_iff.mpr (h.codeFault?_liveCodes hrules hstates hdefined)
  simp only [Parts.fault?, Option.orElse_eq_orElse, Option.orElse_eq_or, Option.or_eq_none_iff,
    lengthFault?_parts, hcodes, true_and, and_true]

/-- The last declaration decides whether a table is compressed, and nothing else. -/
theorem ofDeclarations_snoc_compressed (ds : List Declaration) (on : Bool) :
    ofDeclarations terminalCount symbolCount (ds ++ [.compressed on]) =
      { ofDeclarations terminalCount symbolCount ds with compressed := on } := by
  rw [ofDeclarations, List.foldl_append]
  rfl

/-- What may be at fault in the arrays is the same whether they are compressed or not. -/
theorem faults_compressed (b : Builder) (on : Bool) :
    ({ b with compressed := on } : Builder).fault? = b.fault? ∧
      ({ b with compressed := on } : Builder).parts.countFault? = b.parts.countFault? ∧
      ({ b with compressed := on } : Builder).parts.errorSymbolFault? =
        b.parts.errorSymbolFault? ∧
      ({ b with compressed := on } : Builder).parts.lhsFault? = b.parts.lhsFault? := by
  refine ⟨rfl, ?_, rfl, rfl⟩
  simp only [Parts.countFault?, stateCount_parts]
  rfl

/-- A table is built just if the declarations are not at fault and neither are the counts, the
error symbol and the rules. -/
theorem exists_build_iff :
    (∃ t, (ofDeclarations terminalCount symbolCount ds).build = .ok t) ↔
      (ofDeclarations terminalCount symbolCount ds).fault? = none ∧
        (ofDeclarations terminalCount symbolCount ds).parts.countFault? = none ∧
        (ofDeclarations terminalCount symbolCount ds).parts.errorSymbolFault? = none ∧
        (ofDeclarations terminalCount symbolCount ds).parts.lhsFault? = none := by
  generalize hb : ofDeclarations terminalCount symbolCount ds = b
  have hsound : b.fault? = none → (b.parts.fault? = none ↔ b.parts.countFault? = none ∧
      b.parts.errorSymbolFault? = none ∧ b.parts.lhsFault? = none) := by
    intro hfault
    obtain ⟨hfault, hrules, hstates, hdefined⟩ := checked_of_fault? hfault
    subst hb
    exact (records_ofDeclarations hfault).fault?_parts_eq_none_iff hrules hstates hdefined
  constructor
  · rintro ⟨t, h⟩
    obtain ⟨ht, hfault⟩ := parts_of_build h
    exact ⟨hfault, (hsound hfault).mp (ht ▸ t.sound)⟩
  · rintro ⟨hfault, hparts⟩
    exact ⟨_, build_of_sound hfault ((hsound hfault).mpr hparts)⟩

/-- The table of some declarations, compressed or plain. -/
def buildAs (terminalCount symbolCount : UInt16) (ds : List Declaration) (on : Bool) :
    Except TableError PackedTables :=
  (ofDeclarations terminalCount symbolCount (ds ++ [.compressed on])).build

/-- What is built compressed is also built plain, and the other way round. -/
theorem builds_iff (on on' : Bool) :
    (∃ t, buildAs terminalCount symbolCount ds on = .ok t) ↔
      ∃ t, buildAs terminalCount symbolCount ds on' = .ok t := by
  rw [buildAs, buildAs, exists_build_iff, exists_build_iff]
  simp only [ofDeclarations_snoc_compressed, faults_compressed]

/-! ## Looking up alike -/

theorem stateCount_of_build (h : b.build = .ok t) : t.stateCount = b.stateCount := by
  rw [PackedTables.stateCount, (parts_of_build h).1, stateCount_parts]

/-- The last declaration records no entry. -/
theorem recorded?_compressed (ds : List Declaration) (on : Bool) :
    recorded? terminalCount (ds ++ [.compressed on]) kind s x =
      recorded? terminalCount ds kind s x := by
  rw [recorded?_snoc]
  exact Option.or_none

/-- In a plain table that is built the mark of free slots has the error action. -/
theorem Records.action_freeSlot_of_build (h : Records terminalCount symbolCount ds b)
    (hbuild : b.build = .ok t) (hplain : b.compressed = false) (hs : s.toNat < t.stateCount) :
    t.action s freeSlot = .ok .error := by
  obtain ⟨⟨offset, hoffset⟩, -⟩ := PackedTables.exists_offsets hs
  cases hentry : t.entry? offset freeSlot with
  | some code =>
    rw [PackedTables.action_of_entry hoffset hentry, h.code_of_entry?_freeSlot hbuild hentry]
    rfl
  | none =>
    have hcompressed : t.compressed = false := by
      rw [PackedTables.compressed, (parts_of_build hbuild).1]
      exact hplain
    simp only [PackedTables.action, PackedTables.actionCode, hoffset, ok_bind, hentry, hcompressed]
    rfl

/-- The compressed table of some declarations does what the plain one does. -/
theorem extends_of_builds (hplain : buildAs terminalCount symbolCount ds false = .ok t)
    (hpacked : buildAs terminalCount symbolCount ds true = .ok t') : t.Extends t' := by
  unfold buildAs at hplain hpacked
  have hrecords := records_ofDeclarations (build_eq_ok hplain).2.1
  have hrecords' := records_ofDeclarations (build_eq_ok hpacked).2.1
  have hcount := stateCount_of_build hplain
  have hcount' := stateCount_of_build hpacked
  rw [ofDeclarations_snoc_compressed] at *
  generalize ofDeclarations terminalCount symbolCount ds = b at *
  have hle : ∀ s : StateId, ¬s.toNat < b.stateCount →
      t.stateCount ≤ s.toNat ∧ t'.stateCount ≤ s.toNat := by
    intro s hs
    rw [hcount, hcount']
    exact ⟨Nat.le_of_not_lt hs, Nat.le_of_not_lt hs⟩
  refine ⟨?_, ?_, ?_⟩
  · intro s x hne
    by_cases hs : s.toNat < b.stateCount
    · by_cases hx : x = freeSlot
      · subst hx
        exact absurd (hrecords.action_freeSlot_of_build hplain rfl (hcount ▸ hs)) hne
      · rw [hrecords.action_of_build hplain hs hx, recorded?_compressed] at hne ⊢
        rw [hrecords'.action_of_build hpacked hs hx, recorded?_compressed]
        -- What is not the error action is an entry, and does not need the default.
        cases hentry : recorded? terminalCount ds .terminal s x with
        | some action => rfl
        | none =>
          rw [hentry] at hne
          exact absurd rfl hne
    · obtain ⟨ht, ht'⟩ := hle s hs
      rw [PackedTables.action_of_le ht, PackedTables.action_of_le ht']
  · intro rule
    rw [PackedTables.rule, PackedTables.rule, (parts_of_build hplain).1, (parts_of_build hpacked).1]
    rfl
  · intro s rule info hrule
    have hx := ne_freeSlot_of_lt (PackedTables.lhs_lt hrule)
    by_cases hs : s.toNat < b.stateCount
    · rw [hrecords.goto_of_build hplain hs hx, recorded?_compressed,
        hrecords'.goto_of_build hpacked hs hx, recorded?_compressed]
    · obtain ⟨ht, ht'⟩ := hle s hs
      rw [PackedTables.goto_of_le ht, PackedTables.goto_of_le ht']

end Tables.Builder

end ShiftReduce
