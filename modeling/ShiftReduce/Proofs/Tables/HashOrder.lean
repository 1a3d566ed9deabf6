import Mathlib.Data.List.Dedup
import ShiftReduce.Proofs.Tables.Acceptance

/-!
# The order of entries

The entries of a table come in some order from a script, and in another one from the hash maps that
hold them while it is built: these are visited in an order that differs from run to run. Neither
order shows in the table.

* `Builder.buildIn`: building with hash maps that are visited in given orders.
* `Builder.buildIn_eq_build`: rows are sorted, and the default of a state is chosen by a total
  order, so that the orders make no difference.
* `Builder.ofDeclarations_eq`: scripts with the same entries leave a builder with the same cells.
* `Builder.tables_independent_of_order`: both together.
-/

namespace ShiftReduce.Tables

variable {terminalCount symbolCount : UInt16} {ds ds' : List Declaration}
  {cells visited : List Cell} {s : StateId} {row : Row} {rule : RuleId} {b : Builder}

/-! ## Hash maps -/

/-- Orders in which the hash maps of a build are visited. -/
structure HashOrder where
  /-- The map of the entries for symbols of a kind. -/
  cells : SymbolKind → List Cell → List Cell
  perm_cells : ∀ kind cs, (cells kind cs).Perm cs
  /-- The map of the reductions of a state with their frequencies. -/
  tallies : StateId → List (RuleId × Nat) → List (RuleId × Nat)
  perm_tallies : ∀ s ts, (tallies s ts).Perm ts

/-- The greatest item of a list, the last of several. -/
def lastMax {α : Type} (cmp : α → α → Ordering) : List α → Option α
  | [] => none
  | a :: as => some (as.foldl (fun best a => if cmp best a = .gt then best else a) a)

namespace Row

/-- The row of a state, from cells in any order. -/
def collect (visited : List Cell) (s : StateId) : Row :=
  (ofCells visited s).mergeSort fun a b => a.1 ≤ b.1

/-- The rules that a row reduces by, and how often it does. -/
def tally (row : Row) : List (RuleId × Nat) :=
  row.reductions.dedup.map fun rule => (rule, row.reductions.count rule)

/-- How two rules compare as defaults: by frequency, and of two as frequent the lower is the
greater. -/
def compareTallies (a b : RuleId × Nat) : Ordering :=
  (compare a.2 b.2).then (compare b.1.toNat a.1.toNat)

/-- A row without the reductions by its default, and the default. -/
def fold (row : Row) (default : Option RuleId) : Row × Action :=
  match default with
  | some rule => (row.filter fun e => e.2 != .reduce rule, .reduce rule)
  | none => (row, .error)

end Row

namespace Builder

/-- The row of a state, collected from the map of the entries for symbols of a kind. -/
def collectedRow (b : Builder) (o : HashOrder) (kind : SymbolKind) (s : StateId) : Row :=
  Row.collect (o.cells kind (b.cells kind)) s

/-- The rule of an action that reduces by a rule without a declaration. -/
def undefinedAction? (b : Builder) : Action → Option RuleId
  | .reduce rule => if b.rules.size ≤ rule.toNat then some rule else none
  | _ => none

/-- The first reason not to pack the rows that have been collected. -/
def faultIn? (b : Builder) (o : HashOrder) : Option TableError :=
  b.fault <|>
  (if maxRules < b.rules.size then some (.overflow .rules b.rules.size) else none) <|>
  (if maxStates < b.stateCount then some (.overflow .states b.stateCount) else none) <|>
  ((b.states.flatMap (b.collectedRow o .terminal) ++
      b.states.flatMap (b.collectedRow o .nonterminal)).findSome? fun e =>
    b.undefinedAction? e.2).map .unknownRule

/-- The action row of a state and its default. -/
def foldedRow (b : Builder) (o : HashOrder) (s : StateId) : Row × Action :=
  let row := b.collectedRow o .terminal s
  row.fold ((lastMax Row.compareTallies (o.tallies s row.tally)).map Prod.fst)

/-- Packs rows, with the defaults of the states besides. -/
def assemble (b : Builder) (actionRow gotoRow : StateId → Row) (defaults : Array Int16) : Parts :=
  let actions := b.states.map fun s => Placement.mk .terminal s (actionRow s)
  let gotos := b.states.map fun s => Placement.mk .nonterminal s (gotoRow s)
  let rows := (actions ++ gotos).filter fun p => !p.row.isEmpty
  let order := rows.mergeSort fun p q => q.row.length ≤ p.row.length
  let packing := Packing.ofRows (order.map fun p => b.slots p.row)
  let placed := order.zip packing.offsets.reverse
  { codes := packing.codes
    owners := packing.owners
    actionOffsets := offsets b.stateCount .terminal placed
    gotoOffsets := offsets b.stateCount .nonterminal placed
    defaults
    rules := b.rules
    terminalCount := b.terminalCount
    symbolCount := b.symbolCount
    errorSymbol := b.errorSymbol
    compressed := b.compressed }

def partsIn (b : Builder) (o : HashOrder) : Parts :=
  if b.compressed then
    b.assemble (fun s => (b.foldedRow o s).1) (b.collectedRow o .nonterminal)
      (b.states.map fun s => (b.foldedRow o s).2.encode b.rules.size).toArray
  else b.assemble (b.collectedRow o .terminal) (b.collectedRow o .nonterminal) #[]

/-- The table that has been declared, built with hash maps that are visited in given orders. -/
def buildIn (b : Builder) (o : HashOrder) : Except TableError PackedTables :=
  match b.faultIn? o with
  | some fault => .error fault
  | none => PackedTables.ofParts (b.partsIn o)

end Builder

/-! ## Rows -/

/-- Sorted cells are determined by which they are. -/
theorem Cell.Sorted.ext {cells' : List Cell} (h : Sorted cells) (h' : Sorted cells')
    (hmem : ∀ c, c ∈ cells ↔ c ∈ cells') : cells = cells' := by
  have hirrefl : ∀ c : Cell, ¬c.before c = true := fun c hc => not_samePlace_of_before hc ⟨rfl, rfl⟩
  have hnodup : ∀ {cs : List Cell}, Sorted cs → cs.Nodup := by
    intro cs hcs
    refine List.Pairwise.imp ?_ hcs
    rintro c _ hlt rfl
    exact hirrefl c hlt
  refine ((List.perm_ext_iff_of_nodup (hnodup h) (hnodup h')).mpr hmem).eq_of_pairwise ?_ h h'
  intro c c' _ _ hlt hlt'
  exact absurd (before_trans hlt hlt') (hirrefl c)

namespace Row

/-- Sorting undoes the order in which the cells of a row are visited. -/
theorem collect_eq_ofCells (h : Cell.Sorted cells) (hperm : visited.Perm cells) (s : StateId) :
    collect visited s = ofCells cells s := by
  have hrow := ascending_ofCells h s
  have hsame : (collect visited s).Perm (ofCells cells s) :=
    (List.mergeSort_perm _ _).trans (hperm.filterMap _)
  have hsorted : (collect visited s).Pairwise fun a b => a.1 ≤ b.1 := by
    have htrans : ∀ a b c : SymbolId × Action, decide (a.1 ≤ b.1) = true →
        decide (b.1 ≤ c.1) = true → decide (a.1 ≤ c.1) = true := by
      simp only [decide_eq_true_eq]
      exact fun a b c => UInt16.le_trans
    have htotal : ∀ a b : SymbolId × Action, (decide (a.1 ≤ b.1) || decide (b.1 ≤ a.1)) = true := by
      simp only [Bool.or_eq_true, decide_eq_true_eq]
      exact fun a b => UInt16.le_total a.1 b.1
    have hle := List.pairwise_mergeSort htrans htotal (ofCells visited s)
    exact hle.imp fun h => of_decide_eq_true h
  -- Of two entries for one symbol there is only one.
  have hunique : ∀ a ∈ ofCells cells s, ∀ b ∈ ofCells cells s, a.1 = b.1 → a = b := by
    rintro ⟨x, action⟩ ha ⟨x', action'⟩ hb heq
    cases heq
    rw [← lookup_eq_some_iff hrow] at ha hb
    rw [ha] at hb
    cases hb
    rfl
  refine hsame.eq_of_pairwise ?_ hsorted (hrow.imp UInt16.le_of_lt)
  intro a b ha hb hle hle'
  exact hunique a (hsame.mem_iff.mp ha) b hb (UInt16.le_antisymm hle hle')

theorem compareTallies_eq_gt_iff {rules : List RuleId} {r r' : RuleId} :
    compareTallies (r, rules.count r) (r', rules.count r') = .gt ↔ preferred rules r r' = true := by
  simp only [compareTallies, Ordering.then_eq_gt, Nat.compare_eq_gt, Nat.compare_eq_eq, preferred,
    Bool.or_eq_true, Bool.and_eq_true, decide_eq_true_eq, beq_iff_eq, UInt16.lt_iff_toNat_lt]

/-- Looking for the last greatest tally is looking for the first best rule: of two different rules
one is always better. -/
theorem foldl_tallies {rules rs : List RuleId} {best r : RuleId}
    (h : rs.foldl (better rules) (some best) = some r) :
    (rs.map fun r => (r, rules.count r)).foldl
      (fun best t => if compareTallies best t = .gt then best else t) (best, rules.count best) =
        (r, rules.count r) := by
  induction rs generalizing best with
  | nil =>
    cases h
    rfl
  | cons r' rs ih =>
    rw [List.foldl_cons, better] at h
    rw [List.map_cons, List.foldl_cons]
    simp only [compareTallies_eq_gt_iff]
    by_cases hnew : preferred rules r' best = true
    · rw [if_pos hnew] at h
      have hold : ¬preferred rules best r' = true := fun hbest =>
        (preferred_iff rules best r').mp hbest (.of_not ((preferred_iff rules r' best).mp hnew))
      rw [if_neg hold]
      exact ih h
    · rw [if_neg hnew] at h
      split
      · exact ih h
      · rename_i hold
        rw [preferred_iff, not_not] at hnew hold
        obtain rfl := hnew.antisymm hold
        exact ih h

/-- In whichever order the tallies are visited, they are those of the rules in some order. -/
theorem exists_rules_of_perm_tally {ts : List (RuleId × Nat)} (hperm : ts.Perm row.tally) :
    ∃ rs : List RuleId, (∀ r, r ∈ rs ↔ r ∈ row.reductions) ∧
      ts = rs.map fun r => (r, row.reductions.count r) := by
  refine ⟨ts.map Prod.fst, ?_, ?_⟩
  · intro r
    have hfst : row.tally.map Prod.fst = row.reductions.dedup := by
      rw [tally, List.map_map]
      exact List.map_id _
    rw [(hperm.map Prod.fst).mem_iff, hfst, List.mem_dedup]
  · rw [List.map_map]
    refine ((List.map_congr_left ?_).trans (List.map_id ts)).symm
    intro t ht
    obtain ⟨r, -, rfl⟩ := List.mem_map.mp (hperm.mem_iff.mp ht)
    rfl

/-- The default is the same in whichever order the tallies are visited. -/
theorem lastMax_tallies {ts : List (RuleId × Nat)} (hperm : ts.Perm row.tally) :
    (lastMax compareTallies ts).map Prod.fst = row.defaultRule := by
  obtain ⟨rs, hmem, rfl⟩ := exists_rules_of_perm_tally hperm
  have hspec := mostFrequent_spec row.reductions
  rw [defaultRule]
  cases hrule : mostFrequent row.reductions with
  | none =>
    rw [hrule] at hspec
    have hnil : rs = [] := List.eq_nil_iff_forall_not_mem.mpr fun r hr => by
      have hr' := (hmem r).mp hr
      rw [show row.reductions = [] from hspec] at hr'
      cases hr'
    rw [hnil]
    rfl
  | some rule =>
    rw [hrule] at hspec
    obtain ⟨hrule, hbest⟩ := hspec
    have hrule := (hmem rule).mpr hrule
    cases rs with
    | nil => cases hrule
    | cons r rs =>
      -- The fold ends at a rule that is as good as all others, and there is only one.
      obtain ⟨r', hfold, hof, hgood, hall⟩ := foldl_better row.reductions r rs
      rw [List.map_cons, lastMax, foldl_tallies hfold]
      show some r' = some rule
      have hr' : r' ∈ row.reductions := (hmem r').mp (by simpa using hof)
      have hgoods : AsGood row.reductions r' rule := by
        rcases List.mem_cons.mp hrule with rfl | hrule
        · exact hgood
        · exact hall rule hrule
      rw [hgoods.antisymm (hbest r' hr')]

/-- What is left of a row, and its default, with the default that compression chooses. -/
theorem fold_defaultRule (row : Row) :
    row.fold row.defaultRule = (row.compress, row.defaultAction) := by
  unfold fold compress defaultAction
  cases row.defaultRule <;> rfl

end Row

namespace Builder

/-! ## Building in any order -/

variable {o o' : HashOrder} {kind : SymbolKind} {c : Cell}

theorem Records.collectedRow_eq (h : Records terminalCount symbolCount ds b) (o : HashOrder)
    (kind : SymbolKind) (s : StateId) :
    b.collectedRow o kind s = Row.ofCells (b.cells kind) s :=
  Row.collect_eq_ofCells (h.sorted kind) (o.perm_cells kind _) s

theorem Records.foldedRow_eq (h : Records terminalCount symbolCount ds b) (o : HashOrder)
    (s : StateId) : b.foldedRow o s =
      ((b.fullActionRow s).compress, (b.fullActionRow s).defaultAction) := by
  have hrow : b.collectedRow o .terminal s = b.fullActionRow s := h.collectedRow_eq o .terminal s
  rw [foldedRow, hrow, Row.lastMax_tallies (o.perm_tallies s _), Row.fold_defaultRule]

theorem Records.partsIn_eq (h : Records terminalCount symbolCount ds b) (o : HashOrder) :
    b.partsIn o = b.parts := by
  have hgoto : b.collectedRow o .nonterminal = b.gotoRow :=
    funext fun s => h.collectedRow_eq o .nonterminal s
  have hfull : b.collectedRow o .terminal = b.fullActionRow :=
    funext fun s => h.collectedRow_eq o .terminal s
  have hparts : b.parts = b.assemble b.actionRow b.gotoRow b.defaults := rfl
  unfold partsIn
  split
  · rename_i hcompressed
    have hrow : b.actionRow = fun s => (b.fullActionRow s).compress := by
      funext s
      rw [actionRow, if_pos hcompressed]
    rw [hparts, hgoto, hrow, defaults, if_pos hcompressed]
    simp only [h.foldedRow_eq]
  · rename_i hcompressed
    have hrow : b.actionRow = b.fullActionRow := by
      funext s
      rw [actionRow, if_neg hcompressed]
    rw [hparts, hgoto, hfull, hrow, defaults, if_neg hcompressed]

/-- The states of a table are listed in order. -/
theorem pairwise_states (h : b.stateCount ≤ maxStates) : b.states.Pairwise (· < ·) := by
  rw [states, List.pairwise_map]
  refine List.pairwise_lt_range.imp_of_mem ?_
  intro i j hi hj hlt
  rw [List.mem_range] at hi hj
  rw [maxStates] at h
  rw [UInt16.lt_iff_toNat_lt, UInt16.toNat_ofNat', UInt16.toNat_ofNat',
    Nat.mod_eq_of_lt (by omega), Nat.mod_eq_of_lt (by omega)]
  exact hlt

theorem state_lt_statesNamed (c : Cell) : c.state.toNat < statesNamed c := by
  unfold statesNamed
  split <;> omega

/-- The rows of all states are all entries. -/
theorem Records.flatMap_rows (h : Records terminalCount symbolCount ds b)
    (hstates : b.stateCount ≤ maxStates) (kind : SymbolKind) :
    (b.states.flatMap fun s => (Row.ofCells (b.cells kind) s).map fun e => Cell.mk s e.1 e.2) =
      b.cells kind := by
  refine Cell.Sorted.ext ?_ (h.sorted kind) ?_
  · rw [Cell.Sorted, List.pairwise_flatMap]
    constructor
    · intro s _
      rw [List.pairwise_map]
      refine (Row.ascending_ofCells (h.sorted kind) s).imp ?_
      intro e e' hlt
      exact Cell.before_iff.mpr (.inr ⟨rfl, hlt⟩)
    · refine (pairwise_states hstates).imp ?_
      intro s s' hlt c hc c' hc'
      obtain ⟨e, -, rfl⟩ := List.mem_map.mp hc
      obtain ⟨e', -, rfl⟩ := List.mem_map.mp hc'
      exact Cell.before_iff.mpr (.inl hlt)
  · rintro ⟨s, x, action⟩
    simp only [List.mem_flatMap, List.mem_map, Prod.exists, Row.mem_ofCells]
    constructor
    · rintro ⟨s', -, x', action', hc, heq⟩
      cases heq
      exact hc
    · intro hc
      have hlt := Nat.lt_of_lt_of_le (state_lt_statesNamed _) (h.named kind _ hc)
      exact ⟨s, mem_states hlt, x, action, hc, rfl⟩

/-- A search of the rows of all states is a search of all entries. -/
theorem Records.findSome?_rows (h : Records terminalCount symbolCount ds b)
    (hstates : b.stateCount ≤ maxStates) (o : HashOrder) (kind : SymbolKind) :
    (b.states.flatMap (b.collectedRow o kind)).findSome? (fun e => b.undefinedAction? e.2) =
      (b.cells kind).findSome? b.undefinedRule? := by
  have hrows : (b.cells kind).map (fun c => (c.symbol, c.action)) =
      b.states.flatMap (b.collectedRow o kind) := by
    rw [← h.flatMap_rows hstates kind, List.map_flatMap]
    congr 1
    funext s
    rw [List.map_map, h.collectedRow_eq]
    exact List.map_id _
  rw [← hrows, List.findSome?_map]
  rfl

theorem Records.faultIn?_eq (h : Records terminalCount symbolCount ds b) (o : HashOrder) :
    b.faultIn? o = b.fault? := by
  unfold faultIn? fault?
  by_cases hstates : maxStates < b.stateCount
  · simp [hstates]
  · have hstates := Nat.le_of_not_lt hstates
    -- Nothing reduces on a nonterminal.
    have hgotos : (b.cells .nonterminal).findSome? b.undefinedRule? = none := by
      rw [List.findSome?_eq_none_iff]
      intro c hc
      rw [Option.eq_none_iff_forall_ne_some]
      intro rule hrule
      cases (h.proper .nonterminal c hc).2.2 rule (undefinedRule?_eq_some_iff.mp hrule).1
    have hactions : b.cells .terminal = b.actions := rfl
    simp only [List.findSome?_append, h.findSome?_rows hstates, hgotos, hactions, Option.or_none]

/-- Building does not depend on the order in which hash maps are visited. -/
theorem buildIn_eq_build (terminalCount symbolCount : UInt16) (ds : List Declaration)
    (o : HashOrder) : (ofDeclarations terminalCount symbolCount ds).buildIn o =
      (ofDeclarations terminalCount symbolCount ds).build := by
  cases hfault : (ofDeclarations terminalCount symbolCount ds).fault with
  | some fault =>
    rw [buildIn, build, faultIn?, fault?, hfault]
    rfl
  | none =>
    have hrecords := records_ofDeclarations hfault
    cases hproblem : (ofDeclarations terminalCount symbolCount ds).fault? with
    | some problem => simp only [buildIn, build, hrecords.faultIn?_eq, hproblem]
    | none => simp only [buildIn, build, hrecords.faultIn?_eq, hproblem, hrecords.partsIn_eq]

/-! ## Declaring in any order -/

theorem stateCountOf_perm {entries entries' : List (SymbolKind × Cell)}
    (h : entries.Perm entries') : stateCountOf entries = stateCountOf entries' := by
  apply eq_of_forall_ge_iff
  intro n
  simp only [stateCountOf_le_iff, h.mem_iff]

/-- Scripts with the same entries, and the same besides, leave the same builder if the entries are
consistent. -/
theorem ofDeclarations_eq (hrules : rulesOf ds = rulesOf ds')
    (herror : errorSymbolOf ds = errorSymbolOf ds')
    (hcompressed : compressedBy ds = compressedBy ds')
    (hentries : (entriesOf terminalCount ds).Perm (entriesOf terminalCount ds'))
    (hconsistent : Consistent terminalCount symbolCount (entriesOf terminalCount ds)) :
    ofDeclarations terminalCount symbolCount ds =
      ofDeclarations terminalCount symbolCount ds' := by
  have hfault := fault_eq_none_iff.mpr hconsistent
  have hfault' := fault_eq_none_iff.mpr (hconsistent.of_subset hentries.symm.subset)
  have hframes := frames_ofDeclarations terminalCount symbolCount ds
  have hframes' := frames_ofDeclarations terminalCount symbolCount ds'
  have hrecords := records_ofDeclarations hfault
  have hrecords' := records_ofDeclarations hfault'
  -- Sorted cells are determined by what is among them.
  have hcells : ∀ kind, (ofDeclarations terminalCount symbolCount ds).cells kind =
      (ofDeclarations terminalCount symbolCount ds').cells kind := by
    intro kind
    refine (hrecords.sorted kind).ext (hrecords'.sorted kind) ?_
    intro c
    rw [hrecords.mem_cells_iff_mem_entriesOf, hrecords'.mem_cells_iff_mem_entriesOf,
      hentries.mem_iff]
  have hstates := stateCount_ofDeclarations hfault
  rw [stateCountOf_perm hentries, ← stateCount_ofDeclarations hfault'] at hstates
  have hext : ∀ {b b' : Builder}, b.terminalCount = b'.terminalCount →
      b.symbolCount = b'.symbolCount → b.rules.toList = b'.rules.toList →
      (∀ kind, b.cells kind = b'.cells kind) → b.stateCount = b'.stateCount →
      b.errorSymbol = b'.errorSymbol → b.compressed = b'.compressed → b.fault = b'.fault →
      b = b' := by
    rintro ⟨⟩ ⟨⟩ rfl rfl hrules hcells rfl rfl rfl rfl
    obtain rfl := Array.toList_inj.mp hrules
    obtain rfl := hcells .terminal
    obtain rfl := hcells .nonterminal
    rfl
  apply hext
  · rw [hframes.terminalCount_eq, hframes'.terminalCount_eq]
  · rw [hframes.symbolCount_eq, hframes'.symbolCount_eq]
  · rw [hframes.rules_eq, hframes'.rules_eq, hrules]
  · exact hcells
  · exact hstates
  · rw [hframes.errorSymbol_eq, hframes'.errorSymbol_eq, herror]
  · rw [hframes.compressed_eq, hframes'.compressed_eq, hcompressed]
  · rw [hfault, hfault']

end Builder

/-- Whether a declaration is one of an entry. -/
def Declaration.isEntry : Declaration → Bool
  | .rule _ _ => false
  | .errorSymbol _ => false
  | .compressed _ => false
  | _ => true

theorem entriesOf_filter_isEntry (terminalCount : UInt16) (ds : List Declaration) :
    entriesOf terminalCount (ds.filter Declaration.isEntry) = entriesOf terminalCount ds := by
  rw [entriesOf, List.filterMap_filter]
  apply List.filterMap_congr
  intro d _
  cases d <;> rfl

namespace Builder

/-- Two scripts with the same rules in the same order, the same error symbol in the end and both
compressed or both plain, which declare the same entries in any orders: either both make no table,
or both make tables of the same parts, and in whichever orders the hash maps are visited. -/
theorem tables_independent_of_order (hrules : rulesOf ds = rulesOf ds')
    (herror : errorSymbolOf ds = errorSymbolOf ds')
    (hcompressed : compressedBy ds = compressedBy ds')
    (hentries : (ds.filter Declaration.isEntry).Perm (ds'.filter Declaration.isEntry))
    (o o' : HashOrder) :
    (∃ problem problem',
      (ofDeclarations terminalCount symbolCount ds).buildIn o = .error problem ∧
      (ofDeclarations terminalCount symbolCount ds').buildIn o' = .error problem') ∨
    ∃ t t', (ofDeclarations terminalCount symbolCount ds).buildIn o = .ok t ∧
      (ofDeclarations terminalCount symbolCount ds').buildIn o' = .ok t' ∧ t.parts = t'.parts := by
  have hentries : (entriesOf terminalCount ds).Perm (entriesOf terminalCount ds') := by
    rw [← entriesOf_filter_isEntry terminalCount ds, ← entriesOf_filter_isEntry terminalCount ds']
    exact hentries.filterMap _
  simp only [buildIn_eq_build]
  by_cases hconsistent : Consistent terminalCount symbolCount (entriesOf terminalCount ds)
  · rw [ofDeclarations_eq hrules herror hcompressed hentries hconsistent]
    cases (ofDeclarations terminalCount symbolCount ds').build with
    | ok t => exact .inr ⟨t, t, rfl, rfl, rfl⟩
    | error problem => exact .inl ⟨problem, problem, rfl, rfl⟩
  -- The first offences may be different ones, but both scripts have one.
  · have hfails : ∀ ds : List Declaration,
        ¬Consistent terminalCount symbolCount (entriesOf terminalCount ds) →
        ∃ problem, (ofDeclarations terminalCount symbolCount ds).build = .error problem := by
      intro ds hds
      cases hfault : (ofDeclarations terminalCount symbolCount ds).fault with
      | none => exact absurd (fault_eq_none_iff.mp hfault) hds
      | some problem =>
        exact ⟨problem, build_eq_error_iff.mpr (.inl (fault?_eq_some_iff.mpr (.inl hfault)))⟩
    obtain ⟨problem, hfail⟩ := hfails ds hconsistent
    obtain ⟨problem', hfail'⟩ := hfails ds' fun hother =>
      hconsistent (hother.of_subset hentries.subset)
    exact .inl ⟨problem, problem', hfail, hfail'⟩

/-- The entries of `choices` in another order. -/
def otherChoices : List Declaration :=
  [.compressed true, .rule 3 1, .accept 2 eof, .goto 0 3 2, .reduce 1 2 0, .rule 3 1,
   .reduce 1 eof 1, .shift 0 1 1]

def backwards : HashOrder where
  cells _ cs := cs.reverse
  perm_cells _ cs := cs.reverse_perm
  tallies _ ts := ts.reverse
  perm_tallies _ ts := ts.reverse_perm

/-- Visits all maps in order of what they hold. -/
def forwards : HashOrder where
  cells _ cs := cs
  perm_cells _ cs := .refl cs
  tallies _ ts := ts
  perm_tallies _ ts := .refl ts

theorem tables_independent_of_order_choices :
    ∃ t t', (ofDeclarations 3 4 choices).buildIn forwards = .ok t ∧
      (ofDeclarations 3 4 otherChoices).buildIn backwards = .ok t' ∧ t.parts = t'.parts := by
  rcases @tables_independent_of_order 3 4 choices otherChoices (by decide) (by decide) (by decide)
    (by decide) forwards backwards with ⟨problem, _, hfail, -⟩ | h
  · obtain ⟨t, hbuild, -⟩ := build_choices
    rw [buildIn_eq_build, hbuild] at hfail
    cases hfail
  · exact h

end Builder

end ShiftReduce.Tables
