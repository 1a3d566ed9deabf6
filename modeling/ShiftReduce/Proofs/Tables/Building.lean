import ShiftReduce.Proofs.Checked
import ShiftReduce.Proofs.Tables.Codes
import ShiftReduce.Proofs.Tables.Lookup
import ShiftReduce.Proofs.Tables.Recording

/-!
# A table has what was declared

Building packs rows, folds reductions into defaults and writes actions as codes. None
of it loses an entry or makes one up: a lookup in the table that is built is what the
declarations record, or the default of the state.

* `IsDefault`: the action of a state for symbols without an entry.
* `Builder.build_eq_ok`: what has been checked of a table that is built.
* `Builder.Records.encodable`: every recorded action has a code of its own.
* `Builder.Records.action_of_build` and `Builder.Records.goto_of_build`: lookups.
-/

namespace ShiftReduce.Tables

variable {terminalCount symbolCount : UInt16} {ds : List Declaration} {kind : SymbolKind}
  {c : Cell} {s : StateId} {x : SymbolId} {b : Builder} {t : PackedTables}

/-! ## Defaults -/

/-- The rules that a state reduces by, once for each terminal. -/
def reductions (terminalCount : UInt16) (ds : List Declaration) (s : StateId) : List RuleId :=
  ((List.range terminalCount.toNat).map UInt16.ofNat).filterMap fun x =>
    match recorded? terminalCount ds .terminal s x with
    | some (.reduce rule) => some rule
    | _ => none

/-- The action of a state for symbols without an entry: in a compressed table its most
frequent reduction, the lowest of several, and otherwise the error action. -/
def IsDefault (terminalCount : UInt16) (ds : List Declaration) (s : StateId) : Action → Prop
  | .reduce rule =>
    compressedBy ds = true ∧ rule ∈ reductions terminalCount ds s ∧
      ∀ r ∈ reductions terminalCount ds s, Row.AsGood (reductions terminalCount ds s) rule r
  | .error => compressedBy ds = false ∨ reductions terminalCount ds s = []
  | .shift _ => False
  | .accept => False

/-- The declarations leave no choice of a default. -/
theorem IsDefault.unique {a a' : Action} (h : IsDefault terminalCount ds s a)
    (h' : IsDefault terminalCount ds s a') : a = a' := by
  cases a with
  | shift state => exact h.elim
  | accept => exact h.elim
  | reduce rule =>
    obtain ⟨hcompressed, hmem, hgood⟩ := h
    cases a' with
    | shift state => exact h'.elim
    | accept => exact h'.elim
    | reduce rule' => rw [(hgood _ h'.2.1).antisymm (h'.2.2 _ hmem)]
    | error =>
      rcases h' with hoff | hnone
      · rw [hcompressed] at hoff
        cases hoff
      · rw [hnone] at hmem
        cases hmem
  | error =>
    cases a' with
    | shift state => exact h'.elim
    | accept => exact h'.elim
    | reduce rule' =>
      obtain ⟨hcompressed, hmem, -⟩ := h'
      rcases h with hoff | hnone
      · rw [hcompressed] at hoff
        cases hoff
      · rw [hnone] at hmem
        cases hmem
    | error => rfl

namespace Builder

/-! ## What building checks -/

/-- What is checked before the rows are packed. -/
theorem checked_of_fault? (h : b.fault? = none) :
    b.fault = none ∧ b.rules.size ≤ maxRules ∧ b.stateCount ≤ maxStates ∧
      ∀ c ∈ b.actions, b.undefinedRule? c = none := by
  simp only [fault?, Option.orElse_eq_orElse, Option.orElse_eq_or, Option.or_eq_none_iff,
    Option.map_eq_none_iff, List.findSome?_eq_none_iff] at h
  obtain ⟨hfault, hrules, hstates, hdefined⟩ := h
  refine ⟨hfault, ?_, ?_, hdefined⟩
  · split at hrules
    · cases hrules
    · omega
  · split at hstates
    · cases hstates
    · omega

/-- A table is built of arrays in which nothing is wrong, and only if what is declared has no
fault. -/
theorem parts_of_build (h : b.build = .ok t) : t.parts = b.parts ∧ b.fault? = none := by
  unfold build at h
  split at h
  · cases h
  · rename_i hfault
    refine ⟨?_, hfault⟩
    unfold PackedTables.ofParts at h
    split at h
    · cases h
    · cases h
      rfl

theorem build_eq_ok (h : b.build = .ok t) :
    t.parts = b.parts ∧ b.fault = none ∧ b.rules.size ≤ maxRules ∧ b.stateCount ≤ maxStates ∧
      ∀ c ∈ b.actions, b.undefinedRule? c = none := by
  obtain ⟨hparts, hfault⟩ := parts_of_build h
  exact ⟨hparts, checked_of_fault? hfault⟩

/-- Without a fault in the declarations or in the arrays, a table is built. -/
theorem build_of_sound (hfault : b.fault? = none) (hsound : b.parts.fault? = none) :
    b.build = .ok ⟨b.parts, hsound⟩ := by
  rw [build, hfault]
  show PackedTables.ofParts b.parts = _
  unfold PackedTables.ofParts
  split
  · rename_i fault hsome
    rw [hsound] at hsome
    cases hsome
  · rfl

/-- Every recorded action has a code of its own. -/
theorem Records.encodable (h : Records terminalCount symbolCount ds b)
    (hstates : b.stateCount ≤ maxStates) (hdefined : ∀ c ∈ b.actions, b.undefinedRule? c = none)
    (hc : c ∈ b.cells kind) : c.action.Encodable b.rules.size := by
  obtain ⟨hstart, -, hkind⟩ := h.proper kind c hc
  -- A target fits since its state is counted, a rule since it is declared.
  cases haction : c.action with
  | shift target =>
    have hnamed := h.named kind c hc
    rw [statesNamed, haction] at hnamed
    rw [maxStates] at hstates
    simp only [Nat.max_le] at hnamed
    have hpos : target.toNat ≠ 0 := by
      intro hzero
      apply hstart
      rw [haction, UInt16.toNat_inj.mp (hzero.trans UInt16.toNat_zero.symm)]
      rfl
    exact ⟨by omega, by omega⟩
  | reduce rule =>
    obtain rfl := hkind rule haction
    have hrule := hdefined c hc
    rw [undefinedRule?, haction] at hrule
    simp only at hrule
    split at hrule
    · cases hrule
    · show rule.toNat < b.rules.size
      omega
  | accept => trivial
  | error => trivial

/-! ## Rows of what is declared -/

theorem Records.mem_cells_iff (h : Records terminalCount symbolCount ds b) (kind : SymbolKind)
    {action : Action} :
    ⟨s, x, action⟩ ∈ b.cells kind ↔ recorded? terminalCount ds kind s x = some action := by
  rw [← Cell.find?_eq_some_iff (h.sorted kind), h.found]

/-- An entry is for a symbol of its kind. -/
theorem Records.isOfKind_of_recorded (h : Records terminalCount symbolCount ds b) {action : Action}
    (hentry : recorded? terminalCount ds kind s x = some action) : b.isOfKind kind x = true :=
  h.isOfKind kind _ ((h.mem_cells_iff kind).mpr hentry)

/-- The row of a state as declared is what is recorded for the terminals in order. -/
theorem Records.perm_fullActionRow (h : Records terminalCount symbolCount ds b) (s : StateId) :
    (b.fullActionRow s).Perm
      (((List.range terminalCount.toNat).map UInt16.ofNat).filterMap fun x =>
        (recorded? terminalCount ds .terminal s x).map (x, ·)) := by
  -- No list has an entry twice, so it is enough that both have the same ones.
  have hrow : (b.fullActionRow s).Nodup :=
    List.Pairwise.imp (fun hlt heq => UInt16.ne_of_lt hlt (congrArg Prod.fst heq))
      (Row.ascending_ofCells (h.sorted .terminal) s)
  have hall : (((List.range terminalCount.toNat).map UInt16.ofNat).filterMap fun x =>
      (recorded? terminalCount ds .terminal s x).map (x, ·)).Nodup := by
    refine List.Nodup.filterMap ?_ (nodup_wordsBelow (Nat.le_of_lt terminalCount.toNat_lt))
    intro x x' e he he'
    obtain ⟨_, -, rfl⟩ := Option.map_eq_some_iff.mp he
    obtain ⟨_, -, heq⟩ := Option.map_eq_some_iff.mp he'
    exact (congrArg Prod.fst heq).symm
  apply (List.perm_ext_iff_of_nodup hrow hall).mpr
  rintro ⟨x, action⟩
  rw [fullActionRow, Row.mem_ofCells, List.mem_filterMap]
  constructor
  · intro hmem
    have hentry := (h.mem_cells_iff .terminal).mp hmem
    have hkind := h.isOfKind_of_recorded hentry
    rw [Builder.isOfKind, h.terminalCount_eq, decide_eq_true_eq, UInt16.lt_iff_toNat_lt] at hkind
    exact ⟨x, mem_wordsBelow hkind, by rw [hentry]; rfl⟩
  · rintro ⟨x', -, hx'⟩
    obtain ⟨action', hentry, heq⟩ := Option.map_eq_some_iff.mp hx'
    cases heq
    exact (h.mem_cells_iff .terminal).mpr hentry

theorem Records.perm_reductions (h : Records terminalCount symbolCount ds b) (s : StateId) :
    (b.fullActionRow s).reductions.Perm (reductions terminalCount ds s) := by
  unfold Row.reductions
  refine ((h.perm_fullActionRow s).filterMap _).trans (List.Perm.of_eq ?_)
  rw [List.filterMap_filterMap, reductions]
  congr 1
  funext x
  rcases recorded? terminalCount ds .terminal s x with _ | _ | _ | _ | _ <;> rfl

/-- The default that building chooses for a state is the one that the declarations
determine. -/
theorem Records.isDefault (h : Records terminalCount symbolCount ds b) (s : StateId) :
    IsDefault terminalCount ds s
      (if b.compressed then (b.fullActionRow s).defaultAction else .error) := by
  have hperm := h.perm_reductions s
  split
  · rename_i hcompressed
    have hspec := Row.mostFrequent_spec (b.fullActionRow s).reductions
    rw [Row.defaultAction, Row.defaultRule]
    cases hrule : Row.mostFrequent (b.fullActionRow s).reductions with
    | some rule =>
      rw [hrule] at hspec
      refine ⟨h.compressed_eq ▸ hcompressed, hperm.mem_iff.mp hspec.1, ?_⟩
      intro r hr
      have hgood := hspec.2 r (hperm.mem_iff.mpr hr)
      rwa [Row.AsGood, hperm.count_eq, hperm.count_eq] at hgood
    | none =>
      rw [hrule] at hspec
      rw [show (b.fullActionRow s).reductions = [] from hspec] at hperm
      exact .inr hperm.nil_eq.symm
  · rename_i hcompressed
    exact .inl (by rw [← h.compressed_eq]; exact Bool.eq_false_iff.mpr hcompressed)

/-! ## Looking up -/

/-- No symbol of a grammar is mistaken for a free place. -/
theorem ne_freeSlot_of_lt {y : UInt16} (h : x < y) : x ≠ freeSlot := by
  rintro rfl
  rw [UInt16.lt_iff_toNat_lt] at h
  have hy := y.toNat_lt
  have hfree : freeSlot.toNat = 65535 := rfl
  omega

theorem Records.ascending_packedRow (h : Records terminalCount symbolCount ds b)
    (kind : SymbolKind) (s : StateId) : Row.Ascending (b.packedRow kind s) := by
  cases kind with
  | terminal =>
    have hrow := Row.ascending_ofCells (h.sorted .terminal) s
    show Row.Ascending (b.actionRow s)
    unfold actionRow
    split
    · exact hrow.compress
    · exact hrow
  | nonterminal => exact Row.ascending_ofCells (h.sorted .nonterminal) s

/-- What the packed row of a state and the default of the state are together. -/
theorem Records.lookup_actionRow_getD (h : Records terminalCount symbolCount ds b) (s : StateId)
    (x : SymbolId) :
    ((b.actionRow s).lookup x).getD
        (if b.compressed then (b.fullActionRow s).defaultAction else .error) =
      (recorded? terminalCount ds .terminal s x).getD
        (if b.compressed then (b.fullActionRow s).defaultAction else .error) := by
  rw [← h.found, ← Row.lookup_ofCells (h.sorted .terminal)]
  unfold actionRow
  split
  · exact Row.lookup_compress_getD (Row.ascending_ofCells (h.sorted .terminal) s) x
  · rfl

/-- A default that is a reduction is recorded for some terminal. -/
theorem Records.encodable_of_isDefault (h : Records terminalCount symbolCount ds b)
    (hstates : b.stateCount ≤ maxStates) (hdefined : ∀ c ∈ b.actions, b.undefinedRule? c = none)
    {action : Action} (hdefault : IsDefault terminalCount ds s action) :
    action.Encodable b.rules.size := by
  cases action with
  | shift state => exact hdefault.elim
  | reduce rule =>
    obtain ⟨x, -, hx⟩ := List.mem_filterMap.mp hdefault.2.1
    split at hx
    · rename_i rule' hentry
      cases hx
      exact h.encodable hstates hdefined ((h.mem_cells_iff .terminal).mpr hentry)
    · cases hx
  | accept => trivial
  | error => trivial

theorem getElem?_defaults (hcompressed : b.compressed = true) (hs : s.toNat < b.stateCount) :
    b.defaults[s.toNat]? = some ((b.fullActionRow s).defaultAction.encode b.rules.size) := by
  rw [defaults, if_pos hcompressed, List.getElem?_toArray, List.getElem?_map, states,
    List.getElem?_map, List.getElem?_range hs, Option.map_some, UInt16.ofNat_toNat, Option.map_some]

theorem item_of_getElem? {α : Type} {items : Array α} {index : UInt16} {item : α}
    (h : items[index.toNat]? = some item) : PackedTables.item items index = .ok item := by
  rw [PackedTables.item, h]

/-- An action of a table that is built. -/
theorem Records.action_of_build (h : Records terminalCount symbolCount ds b)
    (hbuild : b.build = .ok t) (hs : s.toNat < b.stateCount) (hx : x ≠ freeSlot) :
    t.action s x = .ok ((recorded? terminalCount ds .terminal s x).getD
      (if b.compressed then (b.fullActionRow s).defaultAction else .error)) := by
  obtain ⟨ht, -, hrules, hstates, hdefined⟩ := build_eq_ok hbuild
  obtain ⟨offset, hoffset, hentry⟩ :=
    entry?_of_parts ht h.ascending_packedRow hstates .terminal hs
  have hitem : PackedTables.item t.parts.actionOffsets s = .ok offset := by
    rw [ht]
    exact item_of_getElem? hoffset
  have hcode : t.actionCode s x = .ok ((((b.actionRow s).lookup x).getD
      (if b.compressed then (b.fullActionRow s).defaultAction else .error)).encode
        b.rules.size) := by
    rw [PackedTables.actionCode, hitem, ok_bind, hentry x hx, packedRow]
    cases (b.actionRow s).lookup x with
    | some action => rfl
    | none =>
      rw [Option.map_none, Option.getD_none, PackedTables.compressed, ht]
      show (if b.compressed then _ else _) = _
      by_cases hcompressed : b.compressed = true
      · rw [if_pos hcompressed, if_pos hcompressed]
        exact item_of_getElem? (getElem?_defaults hcompressed hs)
      · rw [if_neg hcompressed, if_neg hcompressed]
        rfl
  -- What is found has a code of its own, whether it is an entry or the default.
  have hencodable : ((recorded? terminalCount ds .terminal s x).getD
      (if b.compressed then (b.fullActionRow s).defaultAction else .error)).Encodable
        b.rules.size := by
    cases hrecorded : recorded? terminalCount ds .terminal s x with
    | some action =>
      exact h.encodable hstates hdefined ((h.mem_cells_iff .terminal).mpr hrecorded)
    | none => exact h.encodable_of_isDefault hstates hdefined (h.isDefault s)
  rw [PackedTables.action, hcode, ok_bind, h.lookup_actionRow_getD, PackedTables.ruleCount, ht]
  show Except.ok (Action.decode _ b.rules.size) = _
  rw [Action.decode_encode hencodable hrules]

/-- A goto of a table that is built. -/
theorem Records.goto_of_build (h : Records terminalCount symbolCount ds b)
    (hbuild : b.build = .ok t) (hs : s.toNat < b.stateCount) (hx : x ≠ freeSlot) :
    t.goto s x = .ok ((recorded? terminalCount ds .nonterminal s x).getD .error) := by
  obtain ⟨ht, -, hrules, hstates, hdefined⟩ := build_eq_ok hbuild
  obtain ⟨offset, hoffset, hentry⟩ :=
    entry?_of_parts ht h.ascending_packedRow hstates .nonterminal hs
  have hitem : PackedTables.item t.parts.gotoOffsets s = .ok offset := by
    rw [ht]
    exact item_of_getElem? hoffset
  have hrow : (b.gotoRow s).lookup x = recorded? terminalCount ds .nonterminal s x := by
    rw [← h.found, gotoRow]
    exact Row.lookup_ofCells (h.sorted .nonterminal) s x
  rw [PackedTables.goto, PackedTables.gotoCode, hitem, ok_bind, hentry x hx, packedRow, hrow,
    PackedTables.ruleCount, ht]
  show Except.ok (Action.decode _ b.rules.size) = _
  cases hrecorded : recorded? terminalCount ds .nonterminal s x with
  | some action =>
    have hencodable :=
      h.encodable hstates hdefined ((h.mem_cells_iff .nonterminal).mpr hrecorded)
    rw [Option.map_some, Option.getD_some, Action.decode_encode hencodable hrules]
    rfl
  | none => rfl

/-- A declared entry is for a state and a symbol of the table. -/
theorem Records.declared_spec (h : Records terminalCount symbolCount ds b) {d : Declaration}
    (hd : d ∈ ds) (hentry : d.entry? terminalCount = some (kind, c)) :
    c.state.toNat < b.stateCount ∧ b.isOfKind kind c.symbol = true ∧
      recorded? terminalCount ds kind c.state c.symbol = some c.action := by
  have hrecorded := h.declared d hd kind c hentry
  refine ⟨?_, h.isOfKind_of_recorded hrecorded, hrecorded⟩
  have hnamed := h.named kind c ((h.mem_cells_iff kind).mpr hrecorded)
  unfold statesNamed at hnamed
  split at hnamed <;> omega

/-- A table that is built has every entry that is declared, and no other. For a terminal
without an entry it has the default of the state and for a nonterminal without an entry
the error action. Symbols of the other kind meet no entry. -/
theorem table_has_what_is_declared
    (h : (ofDeclarations terminalCount symbolCount ds).build = .ok t) :
    (∀ d ∈ ds, ∀ kind c, d.entry? terminalCount = some (kind, c) →
      c.state.toNat < t.stateCount ∧
        (new terminalCount symbolCount).isOfKind kind c.symbol = true ∧
        recorded? terminalCount ds kind c.state c.symbol = some c.action) ∧
    ∀ s : StateId, s.toNat < t.stateCount → ∃ default, IsDefault terminalCount ds s default ∧
      (∀ x, x < terminalCount →
        t.action s x = .ok ((recorded? terminalCount ds .terminal s x).getD default) ∧
        t.goto s x = .ok .error) ∧
      ∀ x, terminalCount ≤ x → x < symbolCount →
        t.goto s x = .ok ((recorded? terminalCount ds .nonterminal s x).getD .error) ∧
        t.action s x = .ok default := by
  obtain ⟨ht, hfault, -, -, -⟩ := build_eq_ok h
  have hrecords := records_ofDeclarations hfault
  generalize ofDeclarations terminalCount symbolCount ds = b at *
  have hstates : t.stateCount = b.stateCount := by
    rw [PackedTables.stateCount, Parts.stateCount, ht]
    exact size_offsets _
  have hkind : ∀ kind x, b.isOfKind kind x = (new terminalCount symbolCount).isOfKind kind x := by
    intro kind x
    cases kind with
    | terminal =>
      rw [isOfKind, hrecords.terminalCount_eq]
      rfl
    | nonterminal =>
      rw [isOfKind, hrecords.terminalCount_eq, hrecords.symbolCount_eq]
      rfl
  -- Nothing is recorded for a symbol of the other kind.
  have hnone : ∀ kind s x, (new terminalCount symbolCount).isOfKind kind x = false →
      recorded? terminalCount ds kind s x = none := by
    intro kind s x hx
    rw [Option.eq_none_iff_forall_ne_some]
    intro action hentry
    rw [← hkind, hrecords.isOfKind_of_recorded hentry] at hx
    cases hx
  constructor
  · intro d hd kind c hentry
    rw [hstates, ← hkind]
    exact hrecords.declared_spec hd hentry
  · intro s hs
    rw [hstates] at hs
    refine ⟨_, hrecords.isDefault s, ?_, ?_⟩
    · intro x hx
      refine ⟨hrecords.action_of_build h hs (ne_freeSlot_of_lt hx), ?_⟩
      rw [hrecords.goto_of_build h hs (ne_freeSlot_of_lt hx), hnone]
      · rfl
      · rw [isOfKind, Bool.and_eq_false_iff]
        exact .inl (decide_eq_false (UInt16.not_le.mpr hx))
    · intro x hle hlt
      refine ⟨hrecords.goto_of_build h hs (ne_freeSlot_of_lt hlt), ?_⟩
      rw [hrecords.action_of_build h hs (ne_freeSlot_of_lt hlt), hnone]
      · rfl
      · rw [isOfKind]
        exact decide_eq_false (UInt16.not_lt.mpr hle)

/-- Two reductions that are as frequent, in a compressed table. -/
def choices : List Declaration :=
  [.rule 3 1, .rule 3 1, .shift 0 1 1, .reduce 1 eof 1, .reduce 1 2 0, .goto 0 3 2,
   .accept 2 eof, .compressed true]

/-- The rows of this table are packed as they come, all being of one length. -/
theorem build_choices : ∃ t, (ofDeclarations 3 4 choices).build = .ok t ∧ t.stateCount = 3 := by
  have horder : (ofDeclarations 3 4 choices).packingOrder = (ofDeclarations 3 4 choices).rows :=
    List.mergeSort_of_pairwise (by decide +kernel)
  have hparts : (ofDeclarations 3 4 choices).parts.fault? = none := by
    unfold parts
    rw [horder]
    decide +kernel
  exact ⟨_, build_of_sound (by decide +kernel) hparts, size_offsets _⟩

theorem table_has_what_is_declared_choices :
    ∃ t, (ofDeclarations 3 4 choices).build = .ok t ∧
      t.action 1 eof = .ok (.reduce 1) ∧ t.action 1 2 = .ok (.reduce 0) ∧
      t.goto 0 3 = .ok (.shift 2) ∧ t.goto 1 3 = .ok .error := by
  obtain ⟨t, h, hcount⟩ := build_choices
  obtain ⟨-, hall⟩ := table_has_what_is_declared h
  obtain ⟨_, -, -, hgotos⟩ := hall 0 (by rw [hcount]; decide)
  obtain ⟨_, -, hactions, hothers⟩ := hall 1 (by rw [hcount]; decide)
  exact ⟨t, h, (hactions eof (by decide)).1, (hactions 2 (by decide)).1,
    (hgotos 3 (by decide) (by decide)).1, (hothers 3 (by decide) (by decide)).1⟩

end Builder

end ShiftReduce.Tables
