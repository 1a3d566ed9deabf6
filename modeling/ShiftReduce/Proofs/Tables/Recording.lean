import ShiftReduce.Proofs.Tables.Cells
import ShiftReduce.Tables.Builder

/-!
# What declarations record

A list of declarations by itself tells which action is recorded for a symbol in a
state. `Builder.Records` says that a builder without a fault has kept exactly that,
sorted, and each declaration preserves it.

* `Declaration.entry?`, `recorded?` and `compressedBy`: the declarations alone.
* `Builder.record_spec`: what recording one entry does.
* `Builder.records_ofDeclarations`: all declarations.
-/

namespace ShiftReduce.Tables

variable {terminalCount symbolCount : UInt16} {ds : List Declaration} {d : Declaration}
  {kind : SymbolKind} {c : Cell} {s : StateId} {x : SymbolId}

/-! ## Declarations by themselves -/

/-- The entry that a declaration records, and for which kind of symbol. -/
def Declaration.entry? (terminalCount : UInt16) : Declaration → Option (SymbolKind × Cell)
  | .shift state terminal target => some (.terminal, ⟨state, terminal, .shift target⟩)
  | .reduce state terminal number => some (.terminal, ⟨state, terminal, .reduce number⟩)
  | .accept state symbol =>
    some (if symbol < terminalCount then .terminal else .nonterminal, ⟨state, symbol, .accept⟩)
  | .goto state nonterminal target => some (.nonterminal, ⟨state, nonterminal, .shift target⟩)
  | .rule _ _ => none
  | .errorSymbol _ => none
  | .compressed _ => none

/-- The action that a declaration records for a symbol of a kind in a state. -/
def Declaration.action? (terminalCount : UInt16) (kind : SymbolKind) (s : StateId) (x : SymbolId)
    (d : Declaration) : Option Action :=
  match d.entry? terminalCount with
  | some (k, c) => if k = kind ∧ c.state = s ∧ c.symbol = x then some c.action else none
  | none => none

/-- The action that is recorded for a symbol of a kind in a state. -/
def recorded? (terminalCount : UInt16) (ds : List Declaration) (kind : SymbolKind) (s : StateId)
    (x : SymbolId) : Option Action :=
  ds.findSome? (Declaration.action? terminalCount kind s x)

/-- Whether the table is to be compressed: the last declaration about it counts. -/
def compressedBy (ds : List Declaration) : Bool :=
  ds.foldl
    (fun on d =>
      match d with
      | .compressed on' => on'
      | _ => on)
    false

theorem recorded?_snoc (ds : List Declaration) (d : Declaration) :
    recorded? terminalCount (ds ++ [d]) kind s x =
      (recorded? terminalCount ds kind s x).or (d.action? terminalCount kind s x) := by
  rw [recorded?, List.findSome?_append, List.findSome?_singleton, recorded?]

theorem action?_of_entry? {k : SymbolKind} (h : d.entry? terminalCount = some (k, c)) :
    d.action? terminalCount kind s x =
      if k = kind ∧ c.state = s ∧ c.symbol = x then some c.action else none := by
  rw [Declaration.action?, h]

theorem compressedBy_snoc_of_entry? {k : SymbolKind} (h : d.entry? terminalCount = some (k, c)) :
    compressedBy (ds ++ [d]) = compressedBy ds := by
  rw [compressedBy, List.foldl_append, compressedBy]
  cases d <;> first | rfl | cases h

/-! ## Recording one entry -/

namespace Builder

variable {b : Builder}

theorem fault_fail (b : Builder) (fault : TableError) : (b.fail fault).fault ≠ none := by
  unfold fail
  cases b.fault <;> simp

/-- An entry that is recorded is of its kind, and its place is free or has the same
action already. -/
structure Accepts (b : Builder) (kind : SymbolKind) (c : Cell) (b' : Builder) : Prop where
  faultless : b.fault = none
  isOfKind : b.isOfKind kind c.symbol = true
  agrees : ∀ action, Cell.find? (b.cells kind) c.state c.symbol = some action → action = c.action
  cells_eq : ∀ k, b'.cells k =
    if k = kind ∧ Cell.find? (b.cells kind) c.state c.symbol = none then Cell.insert c (b.cells k)
    else b.cells k
  stateCount_eq : b'.stateCount = max b.stateCount (statesNamed c)
  terminalCount_eq : b'.terminalCount = b.terminalCount
  symbolCount_eq : b'.symbolCount = b.symbolCount
  compressed_eq : b'.compressed = b.compressed

theorem record_spec (h : (b.record kind c).fault = none) : Accepts b kind c (b.record kind c) := by
  unfold record at h ⊢
  split at h
  · rename_i hkind
    rw [if_pos hkind]
    simp only at h ⊢
    -- The states that the cell names are counted first, which leaves all cells as they are.
    have hcells : ∀ n k, ({ b with stateCount := n } : Builder).cells k = b.cells k := by
      intro n k
      cases k <;> rfl
    rw [hcells] at h ⊢
    split at h
    · rename_i action hfound
      split at h
      · rename_i heq
        rw [if_pos heq]
        refine ⟨h, hkind, ?_, ?_, rfl, rfl, rfl, rfl⟩
        · intro action' haction'
          rw [hfound] at haction'
          cases haction'
          exact heq
        · intro k
          rw [hcells, if_neg (by simp [hfound])]
      · exact absurd h (fault_fail _ _)
    · rename_i hfresh
      cases kind with
      | terminal =>
        refine ⟨h, hkind, by simp [hfresh], ?_, rfl, rfl, rfl, rfl⟩
        intro k
        cases k with
        | terminal => rw [if_pos ⟨rfl, hfresh⟩]; rfl
        | nonterminal => rw [if_neg (by simp)]; rfl
      | nonterminal =>
        refine ⟨h, hkind, by simp [hfresh], ?_, rfl, rfl, rfl, rfl⟩
        intro k
        cases k with
        | terminal => rw [if_neg (by simp)]; rfl
        | nonterminal => rw [if_pos ⟨rfl, hfresh⟩]; rfl
  · exact absurd h (fault_fail _ _)

namespace Accepts

variable {b' : Builder} {e : Cell}

theorem isOfKind_eq (h : Accepts b kind c b') (k : SymbolKind) (x : SymbolId) :
    b'.isOfKind k x = b.isOfKind k x := by
  cases k <;> simp only [Builder.isOfKind, h.terminalCount_eq, h.symbolCount_eq]

/-- What is found afterwards: what was found before, and the entry. -/
theorem find?_cells (h : Accepts b kind c b') (k : SymbolKind) (s : StateId) (x : SymbolId) :
    Cell.find? (b'.cells k) s x = (Cell.find? (b.cells k) s x).or
      (if kind = k ∧ c.state = s ∧ c.symbol = x then some c.action else none) := by
  rw [h.cells_eq]
  by_cases hhere : kind = k ∧ c.state = s ∧ c.symbol = x
  · obtain ⟨rfl, rfl, rfl⟩ := hhere
    cases hold : Cell.find? (b.cells kind) c.state c.symbol with
    | none =>
      rw [if_pos ⟨rfl, rfl⟩, Cell.find?_insert hold, if_pos ⟨rfl, rfl⟩, if_pos (by simp)]
      rfl
    | some action =>
      rw [if_neg (by simp), hold]
      rfl
  · rw [if_neg hhere, Option.or_none]
    split
    · rename_i hk
      obtain ⟨rfl, hfresh⟩ := hk
      rw [Cell.find?_insert hfresh, if_neg]
      intro hc
      exact hhere ⟨rfl, hc⟩
    · rfl

theorem sorted (h : Accepts b kind c b') (hsorted : ∀ k, Cell.Sorted (b.cells k))
    (k : SymbolKind) : Cell.Sorted (b'.cells k) := by
  rw [h.cells_eq]
  split
  · rename_i hk
    obtain ⟨rfl, hfresh⟩ := hk
    exact (hsorted k).insert hfresh
  · exact hsorted k

/-- Nothing else is recorded. -/
theorem mem_cells (h : Accepts b kind c b') {k : SymbolKind} (he : e ∈ b'.cells k) :
    (k = kind ∧ e = c) ∨ e ∈ b.cells k := by
  rw [h.cells_eq] at he
  split at he
  · rename_i hk
    obtain ⟨rfl, hfresh⟩ := hk
    rcases (Cell.mem_insert hfresh).mp he with rfl | he
    · exact .inl ⟨rfl, rfl⟩
    · exact .inr he
  · exact .inr he

end Accepts

/-- Whether an entry is one that declarations can record. -/
def Proper (kind : SymbolKind) (action : Action) : Prop :=
  action ≠ .shift startState ∧ action ≠ .error ∧
    ∀ rule, action = .reduce rule → kind = .terminal

/-- A declaration that leaves no fault records its entry. -/
theorem declare_of_entry? (h : (b.declare d).fault = none)
    (hentry : d.entry? b.terminalCount = some (kind, c)) :
    b.declare d = b.record kind c ∧ Proper kind c.action := by
  -- Entering the start state is refused, and the other entries are recorded as they are.
  cases d with
  | shift state terminal target =>
    cases hentry
    rw [declare, enter] at h ⊢
    split at h
    · exact absurd h (fault_fail _ _)
    · rename_i htarget
      rw [if_neg htarget]
      exact ⟨rfl, by simpa using htarget, by simp, by simp⟩
  | goto state nonterminal target =>
    cases hentry
    rw [declare, enter] at h ⊢
    split at h
    · exact absurd h (fault_fail _ _)
    · rename_i htarget
      rw [if_neg htarget]
      exact ⟨rfl, by simpa using htarget, by simp, by simp⟩
  | reduce state terminal rule =>
    cases hentry
    exact ⟨rfl, by simp, by simp, by simp⟩
  | accept state symbol =>
    cases hentry
    exact ⟨rfl, by simp, by simp, by simp⟩
  | rule lhs length => cases hentry
  | errorSymbol symbol => cases hentry
  | compressed on => cases hentry

/-! ## Recording all entries -/

/-- A builder has kept what some declarations record. -/
structure Records (terminalCount symbolCount : UInt16) (ds : List Declaration) (b : Builder) :
    Prop where
  terminalCount_eq : b.terminalCount = terminalCount
  symbolCount_eq : b.symbolCount = symbolCount
  compressed_eq : b.compressed = compressedBy ds
  found : ∀ kind s x,
    Cell.find? (b.cells kind) s x = recorded? terminalCount ds kind s x
  sorted : ∀ kind, Cell.Sorted (b.cells kind)
  isOfKind : ∀ kind, ∀ c ∈ b.cells kind, b.isOfKind kind c.symbol = true
  proper : ∀ kind, ∀ c ∈ b.cells kind, Proper kind c.action
  named : ∀ kind, ∀ c ∈ b.cells kind, statesNamed c ≤ b.stateCount
  /-- Every declaration of an entry is one of what is recorded. -/
  declared : ∀ d ∈ ds, ∀ kind c, d.entry? terminalCount = some (kind, c) →
    recorded? terminalCount ds kind c.state c.symbol = some c.action

theorem records_new (terminalCount symbolCount : UInt16) :
    Records terminalCount symbolCount [] (new terminalCount symbolCount) where
  terminalCount_eq := rfl
  symbolCount_eq := rfl
  compressed_eq := rfl
  found := by rintro (_ | _) s x <;> rfl
  sorted := by rintro (_ | _) <;> exact List.Pairwise.nil
  isOfKind := by rintro (_ | _) <;> simp [cells, new]
  proper := by rintro (_ | _) <;> simp [cells, new]
  named := by rintro (_ | _) <;> simp [cells, new]
  declared := by simp

/-- What recording an entry makes of what was recorded. -/
theorem Records.record (h : Records terminalCount symbolCount ds b)
    (hentry : d.entry? terminalCount = some (kind, c)) (hproper : Proper kind c.action)
    {b' : Builder} (haccepts : Accepts b kind c b') :
    Records terminalCount symbolCount (ds ++ [d]) b' := by
  -- Where the place was taken already, it was by the same action.
  have hnew : recorded? terminalCount (ds ++ [d]) kind c.state c.symbol = some c.action := by
    rw [recorded?_snoc, action?_of_entry? hentry, if_pos ⟨rfl, rfl, rfl⟩]
    cases hold : recorded? terminalCount ds kind c.state c.symbol with
    | none => rfl
    | some action =>
      rw [haccepts.agrees action (by rw [h.found, hold])]
      rfl
  constructor
  · rw [haccepts.terminalCount_eq, h.terminalCount_eq]
  · rw [haccepts.symbolCount_eq, h.symbolCount_eq]
  · rw [haccepts.compressed_eq, h.compressed_eq, compressedBy_snoc_of_entry? hentry]
  · intro k s x
    rw [haccepts.find?_cells, recorded?_snoc, action?_of_entry? hentry, h.found]
  · exact haccepts.sorted h.sorted
  · intro k e he
    rw [haccepts.isOfKind_eq]
    rcases haccepts.mem_cells he with ⟨rfl, rfl⟩ | he
    · exact haccepts.isOfKind
    · exact h.isOfKind k e he
  · intro k e he
    rcases haccepts.mem_cells he with ⟨rfl, rfl⟩ | he
    · exact hproper
    · exact h.proper k e he
  · intro k e he
    rw [haccepts.stateCount_eq]
    rcases haccepts.mem_cells he with ⟨rfl, rfl⟩ | he
    · exact Nat.le_max_right _ _
    · exact Nat.le_trans (h.named k e he) (Nat.le_max_left _ _)
  · intro d' hd' k e he
    rcases List.mem_append.mp hd' with hd' | hd'
    · rw [recorded?_snoc, h.declared d' hd' k e he]
      rfl
    · rw [List.mem_singleton] at hd'
      subst hd'
      rw [hentry] at he
      cases he
      exact hnew

theorem cells_declare (hentry : d.entry? terminalCount = none) (k : SymbolKind) :
    (b.declare d).cells k = b.cells k := by
  cases d with
  | rule lhs length => cases k <;> rfl
  | errorSymbol symbol => cases k <;> rfl
  | compressed on => cases k <;> rfl
  | _ => cases hentry

theorem counts_declare (hentry : d.entry? terminalCount = none) :
    (b.declare d).terminalCount = b.terminalCount ∧
      (b.declare d).symbolCount = b.symbolCount ∧ (b.declare d).stateCount = b.stateCount := by
  cases d with
  | rule lhs length => exact ⟨rfl, rfl, rfl⟩
  | errorSymbol symbol => exact ⟨rfl, rfl, rfl⟩
  | compressed on => exact ⟨rfl, rfl, rfl⟩
  | _ => cases hentry

/-- What a declaration without an entry preserves. -/
theorem Records.declare_other (h : Records terminalCount symbolCount ds b)
    (hentry : d.entry? terminalCount = none) :
    Records terminalCount symbolCount (ds ++ [d]) (b.declare d) := by
  have hcells : ∀ k, (b.declare d).cells k = b.cells k := cells_declare hentry
  obtain ⟨hterminals, hsymbols, hstates⟩ := counts_declare (b := b) hentry
  have hcompressed : (b.declare d).compressed = compressedBy (ds ++ [d]) := by
    rw [compressedBy, List.foldl_append]
    cases d <;> first | exact h.compressed_eq | rfl | cases hentry
  have hrecorded : ∀ k s x, recorded? terminalCount (ds ++ [d]) k s x =
      recorded? terminalCount ds k s x := by
    intro k s x
    rw [recorded?_snoc, Declaration.action?, hentry, Option.or_none]
  constructor
  · rw [hterminals, h.terminalCount_eq]
  · rw [hsymbols, h.symbolCount_eq]
  · exact hcompressed
  · intro k s x
    rw [hcells, hrecorded, h.found]
  · intro k
    rw [hcells]
    exact h.sorted k
  · intro k e he
    rw [hcells] at he
    have hkind := h.isOfKind k e he
    cases k <;> simpa only [Builder.isOfKind, hterminals, hsymbols] using hkind
  · intro k e he
    rw [hcells] at he
    exact h.proper k e he
  · intro k e he
    rw [hcells] at he
    rw [hstates]
    exact h.named k e he
  -- The new declaration has no entry, so an entry is one of those before.
  · intro d' hd' k e he
    rw [hrecorded]
    rcases List.mem_append.mp hd' with hd' | hd'
    · exact h.declared d' hd' k e he
    · rw [List.mem_singleton] at hd'
      rw [hd', hentry] at he
      cases he

/-- A fault stays. -/
theorem faultless_of_declare (h : (b.declare d).fault = none) : b.fault = none := by
  cases hentry : d.entry? b.terminalCount with
  | none =>
    cases d <;> first | exact h | cases hentry
  | some entry =>
    obtain ⟨hrecord, -⟩ := declare_of_entry? h hentry
    rw [hrecord] at h
    exact (record_spec h).faultless

/-- A declaration that leaves no fault preserves what a builder keeps. -/
theorem Records.declare (h : Records terminalCount symbolCount ds b)
    (hfault : (b.declare d).fault = none) :
    Records terminalCount symbolCount (ds ++ [d]) (b.declare d) := by
  cases hentry : d.entry? terminalCount with
  | none => exact h.declare_other hentry
  | some entry =>
    rw [← h.terminalCount_eq] at hentry
    obtain ⟨hrecord, hproper⟩ := declare_of_entry? hfault hentry
    rw [hrecord] at hfault ⊢
    rw [h.terminalCount_eq] at hentry
    exact h.record hentry hproper (record_spec hfault)

theorem faultless_of_declareAll (ds : List Declaration)
    (h : (ds.foldl Builder.declare b).fault = none) : b.fault = none := by
  induction ds generalizing b with
  | nil => exact h
  | cons d ds ih => exact faultless_of_declare (ih h)

/-- A builder without a fault has kept what all its declarations record. -/
theorem records_ofDeclarations (h : (ofDeclarations terminalCount symbolCount ds).fault = none) :
    Records terminalCount symbolCount ds (ofDeclarations terminalCount symbolCount ds) := by
  -- A declaration is added behind those that were taken before, so these are general.
  have hall : ∀ (ds ds' : List Declaration) (b : Builder),
      Records terminalCount symbolCount ds' b → (ds.foldl Builder.declare b).fault = none →
      Records terminalCount symbolCount (ds' ++ ds) (ds.foldl Builder.declare b) := by
    intro ds
    induction ds with
    | nil =>
      intro ds' b hrecords hfault
      rwa [List.append_nil]
    | cons d ds ih =>
      intro ds' b hrecords hfault
      have hnext := ih (ds' ++ [d]) (b.declare d)
        (hrecords.declare (faultless_of_declareAll ds hfault)) hfault
      rwa [List.append_assoc] at hnext
  exact hall ds [] _ (records_new terminalCount symbolCount) h

end Builder

end ShiftReduce.Tables
