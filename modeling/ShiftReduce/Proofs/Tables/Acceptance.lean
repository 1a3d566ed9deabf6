import ShiftReduce.Proofs.Tables.Compression
import ShiftReduce.Proofs.Tables.Scripts

/-!
# Which scripts make a table

Whether a script makes a table is checked in three places: where its entries are taken, before
they are packed, and in the packed arrays. Together these accept the scripts that are
`WellFormed`, and of any other script they report the `FirstProblem`.

* `Builder.build_eq_error_iff`: the checks one after another.
* `Builder.Records.undefinedRule_iff` and `Builder.lhsFault?_iff`: a search stops at the first
  problem.
* `Builder.build_decides_wellFormed`: both together.
-/

namespace ShiftReduce.Tables

variable {terminalCount symbolCount : UInt16} {ds : List Declaration} {rule : RuleId}
  {problem : TableError} {b : Builder}

/-! ## Well-formed scripts -/

/-- A script whose entries can be packed. -/
structure Packable (terminalCount symbolCount : UInt16) (ds : List Declaration) : Prop where
  consistent : Consistent terminalCount symbolCount (entriesOf terminalCount ds)
  rules_le : (rulesOf ds).length ≤ maxRules
  states_le : stateCountOf (entriesOf terminalCount ds) ≤ maxStates
  /-- A rule may be declared behind the reductions by it. -/
  defined : ∀ s x rule, .reduce s x rule ∈ ds → rule.toNat < (rulesOf ds).length

/-- A script that makes a table. -/
structure WellFormed (terminalCount symbolCount : UInt16) (ds : List Declaration) : Prop extends
    Packable terminalCount symbolCount ds where
  terminals : 0 < terminalCount ∧ terminalCount ≤ symbolCount
  errorSymbol : ∀ x, errorSymbolOf ds = some x →
    IsOfKind terminalCount symbolCount .nonterminal x
  lhs : ∀ r ∈ rulesOf ds, IsOfKind terminalCount symbolCount .nonterminal r.1

/-- A rule that is not declared, of the reduction in the lowest state, and there on the lowest
terminal. -/
inductive FirstUndefined (ds : List Declaration) : RuleId → Prop
  | intro {s : StateId} {x : SymbolId} {rule : RuleId} : .reduce s x rule ∈ ds →
      (rulesOf ds).length ≤ rule.toNat →
      (∀ s' x' rule', .reduce s' x' rule' ∈ ds → (rulesOf ds).length ≤ rule'.toNat →
        s < s' ∨ s = s' ∧ x ≤ x') →
      FirstUndefined ds rule

/-- The lowest rule that does not produce a nonterminal. -/
inductive FirstStrayLhs (terminalCount symbolCount : UInt16) (ds : List Declaration) :
    TableError → Prop
  | intro {i : Nat} {lhs : SymbolId} {length : UInt16} : (rulesOf ds)[i]? = some (lhs, length) →
      ¬IsOfKind terminalCount symbolCount .nonterminal lhs →
      (∀ j < i, ∀ r, (rulesOf ds)[j]? = some r →
        IsOfKind terminalCount symbolCount .nonterminal r.1) →
      FirstStrayLhs terminalCount symbolCount ds (.invalidLhs (UInt16.ofNat i) lhs)

/-- What is wrong with a script in the first place: an entry if any entry offends those before
it, and otherwise the first thing that is wrong with the script as a whole. -/
inductive FirstProblem (terminalCount symbolCount : UInt16) (ds : List Declaration) :
    TableError → Prop
  | entry {problem : TableError} :
      FirstOffence terminalCount symbolCount (entriesOf terminalCount ds) problem →
      FirstProblem terminalCount symbolCount ds problem
  | rules : Consistent terminalCount symbolCount (entriesOf terminalCount ds) →
      maxRules < (rulesOf ds).length →
      FirstProblem terminalCount symbolCount ds (.overflow .rules (rulesOf ds).length)
  | states : Consistent terminalCount symbolCount (entriesOf terminalCount ds) →
      (rulesOf ds).length ≤ maxRules →
      maxStates < stateCountOf (entriesOf terminalCount ds) →
      FirstProblem terminalCount symbolCount ds
        (.overflow .states (stateCountOf (entriesOf terminalCount ds)))
  | undefinedRule {rule : RuleId} :
      Consistent terminalCount symbolCount (entriesOf terminalCount ds) →
      (rulesOf ds).length ≤ maxRules →
      stateCountOf (entriesOf terminalCount ds) ≤ maxStates → FirstUndefined ds rule →
      FirstProblem terminalCount symbolCount ds (.unknownRule rule)
  | terminals : Packable terminalCount symbolCount ds →
      ¬(0 < terminalCount ∧ terminalCount ≤ symbolCount) →
      FirstProblem terminalCount symbolCount ds (.overflow .terminals terminalCount.toNat)
  | errorSymbol {x : SymbolId} : Packable terminalCount symbolCount ds →
      (0 < terminalCount ∧ terminalCount ≤ symbolCount) → errorSymbolOf ds = some x →
      ¬IsOfKind terminalCount symbolCount .nonterminal x →
      FirstProblem terminalCount symbolCount ds (.invalidErrorSymbol x)
  | lhs {problem : TableError} : Packable terminalCount symbolCount ds →
      (0 < terminalCount ∧ terminalCount ≤ symbolCount) →
      (∀ x, errorSymbolOf ds = some x → IsOfKind terminalCount symbolCount .nonterminal x) →
      FirstStrayLhs terminalCount symbolCount ds problem →
      FirstProblem terminalCount symbolCount ds problem

/-! ## Searching -/

/-- A search finds what the first item has that has anything. -/
theorem findSome?_eq_some_iff_getElem? {α β : Type} {f : α → Option β} {as : List α} {found : β} :
    as.findSome? f = some found ↔ ∃ (i : Nat) (a : α), as[i]? = some a ∧ f a = some found ∧
      ∀ j < i, ∀ a', as[j]? = some a' → f a' = none := by
  rw [List.findSome?_eq_some_iff]
  constructor
  · rintro ⟨before, a, after, rfl, ha, hbefore⟩
    refine ⟨before.length, a, by simp, ha, ?_⟩
    intro j hj a' ha'
    rw [List.getElem?_append_left hj] at ha'
    exact hbefore a' (List.mem_of_getElem? ha')
  · rintro ⟨i, a, hi, ha, hbefore⟩
    obtain ⟨hlt, rfl⟩ := List.getElem?_eq_some_iff.mp hi
    refine ⟨as.take i, as[i], as.drop (i + 1), ?_, ha, ?_⟩
    · rw [List.getElem_cons_drop, List.take_append_drop]
    · intro a' ha'
      obtain ⟨j, hj⟩ := List.mem_iff_getElem?.mp ha'
      rw [List.getElem?_take] at hj
      split at hj
      · rename_i hji
        exact hbefore j hji a' hj
      · cases hj

namespace Builder

/-- A reduction is kept where it is declared. -/
theorem Records.mem_actions_reduce (h : Records terminalCount symbolCount ds b) {s : StateId}
    {x : SymbolId} : ⟨s, x, .reduce rule⟩ ∈ b.actions ↔ .reduce s x rule ∈ ds := by
  rw [show b.actions = b.cells .terminal from rfl, h.mem_cells_iff_mem_entriesOf,
    mem_entriesOf_reduce]
  exact and_iff_right rfl

theorem undefinedRule?_eq_some_iff {c : Cell} : b.undefinedRule? c = some rule ↔
    c.action = .reduce rule ∧ b.rules.size ≤ rule.toNat := by
  obtain ⟨s, x, action⟩ := c
  cases action <;> simp [undefinedRule?]
  grind

/-- The entries are searched by state and then by terminal. -/
theorem Records.undefinedRule_iff (h : Records terminalCount symbolCount ds b)
    (hrules : b.rules.size = (rulesOf ds).length) :
    b.actions.findSome? b.undefinedRule? = some rule ↔ FirstUndefined ds rule := by
  have hsorted : Cell.Sorted b.actions := h.sorted .terminal
  constructor
  · rw [List.findSome?_eq_some_iff]
    rintro ⟨before, ⟨s, x, action⟩, after, hactions, hfound, hbefore⟩
    obtain ⟨haction, hsize⟩ := undefinedRule?_eq_some_iff.mp hfound
    obtain rfl : action = .reduce rule := haction
    rw [hrules] at hsize
    have hmem : ⟨s, x, .reduce rule⟩ ∈ b.actions := by simp [hactions]
    refine .intro (h.mem_actions_reduce.mp hmem) hsize ?_
    intro s' x' rule' hd' hsize'
    -- Any other such entry lies behind this one in the sorted list.
    have hmem' := h.mem_actions_reduce.mpr hd'
    rw [hactions, List.mem_append, List.mem_cons] at hmem'
    rw [hactions] at hsorted
    rcases hmem' with hmem' | heq | hmem'
    · have hnone := hbefore _ hmem'
      rw [undefinedRule?_eq_some_iff.mpr ⟨rfl, hrules ▸ hsize'⟩] at hnone
      cases hnone
    · cases heq
      exact .inr ⟨rfl, UInt16.le_refl _⟩
    · have hlater := (List.pairwise_cons.mp (List.pairwise_append.mp hsorted).2.1).1 _ hmem'
      exact (Cell.before_iff.mp hlater).imp_right fun hplace => ⟨hplace.1, UInt16.le_of_lt hplace.2⟩
  · rintro ⟨hd, hsize, hfirst⟩
    rename_i s x
    obtain ⟨before, after, hactions⟩ := List.append_of_mem (h.mem_actions_reduce.mpr hd)
    rw [List.findSome?_eq_some_iff]
    refine ⟨before, _, after, hactions, undefinedRule?_eq_some_iff.mpr ⟨rfl, hrules ▸ hsize⟩, ?_⟩
    -- An entry in front of it that offends too would be the first one.
    intro c hc
    rw [Option.eq_none_iff_forall_ne_some]
    intro rule' hrule'
    obtain ⟨haction, hsize'⟩ := undefinedRule?_eq_some_iff.mp hrule'
    obtain ⟨s', x', action⟩ := c
    obtain rfl : action = .reduce rule' := haction
    have hd' := h.mem_actions_reduce.mp (hactions ▸ List.mem_append_left _ hc)
    rw [hactions] at hsorted
    have hearlier := (List.pairwise_append.mp hsorted).2.2 _ hc _ List.mem_cons_self
    have hle := hfirst s' x' rule' hd' (hrules ▸ hsize')
    rw [Cell.before_iff] at hearlier
    simp only [UInt16.lt_iff_toNat_lt, UInt16.le_iff_toNat_le, ← UInt16.toNat_inj] at hearlier hle
    omega

theorem isNonterminal_parts {x : SymbolId}
    (h : Frames terminalCount symbolCount ds b) :
    b.parts.isNonterminal x = true ↔ IsOfKind terminalCount symbolCount .nonterminal x := by
  rw [← h.terminalCount_eq, ← h.symbolCount_eq, ← isOfKind_iff]
  rfl

theorem errorSymbolFault?_iff (h : Frames terminalCount symbolCount ds b) :
    b.parts.errorSymbolFault? = some problem ↔ ∃ x, errorSymbolOf ds = some x ∧
      ¬IsOfKind terminalCount symbolCount .nonterminal x ∧ problem = .invalidErrorSymbol x := by
  rw [Parts.errorSymbolFault?, show b.parts.errorSymbol = errorSymbolOf ds from h.errorSymbol_eq]
  cases errorSymbolOf ds with
  | none => simp
  | some x =>
    by_cases hx : b.parts.isNonterminal x = true
    · simp [hx, (isNonterminal_parts h).mp hx]
    · simp [hx, mt (isNonterminal_parts h).mpr hx, eq_comm]

theorem errorSymbolFault?_eq_none_iff (h : Frames terminalCount symbolCount ds b) :
    b.parts.errorSymbolFault? = none ↔
      ∀ x, errorSymbolOf ds = some x → IsOfKind terminalCount symbolCount .nonterminal x := by
  rw [Option.eq_none_iff_forall_ne_some]
  constructor
  · intro hnone x hx
    apply Classical.byContradiction
    intro hkind
    exact hnone _ ((errorSymbolFault?_iff h).mpr ⟨x, hx, hkind, rfl⟩)
  · intro hall problem hproblem
    obtain ⟨x, hx, hkind, -⟩ := (errorSymbolFault?_iff h).mp hproblem
    exact hkind (hall x hx)

/-- The rules that are packed, with their numbers. -/
theorem getElem?_rules (h : Frames terminalCount symbolCount ds b) {i : Nat} {r : Rule × Nat} :
    b.parts.rules.toList.zipIdx[i]? = some r ↔
      ∃ lhs length, (rulesOf ds)[i]? = some (lhs, length) ∧ r = (.pack lhs length, i) := by
  rw [show b.parts.rules = b.rules from rfl, h.rules_eq, List.getElem?_zipIdx, List.getElem?_map]
  cases (rulesOf ds)[i]? with
  | none => simp
  | some found => simp [Prod.ext_iff, eq_comm]

/-- Nothing is wrong with one rule. -/
theorem ite_isNonterminal_eq_none_iff (h : Frames terminalCount symbolCount ds b) {x : SymbolId}
    {fault : TableError} : (if b.parts.isNonterminal x then none else some fault) = none ↔
      IsOfKind terminalCount symbolCount .nonterminal x := by
  rw [← isNonterminal_parts h]
  simp

theorem lhsFault?_iff (h : Frames terminalCount symbolCount ds b) :
    b.parts.lhsFault? = some problem ↔ FirstStrayLhs terminalCount symbolCount ds problem := by
  rw [Parts.lhsFault?, findSome?_eq_some_iff_getElem?]
  constructor
  -- A rule in the array is the packed form of the one declared at its place.
  · rintro ⟨i, r, hi, hfound, hbefore⟩
    obtain ⟨lhs, length, hr, rfl⟩ := (getElem?_rules h).mp hi
    dsimp only at hfound
    rw [Rule.lhs_pack] at hfound
    split at hfound
    · cases hfound
    · rename_i hstray
      cases hfound
      refine .intro hr (mt (isNonterminal_parts h).mpr hstray) ?_
      rintro j hj ⟨lhs', length'⟩ hr'
      have hnone := hbefore j hj _ ((getElem?_rules h).mpr ⟨lhs', length', hr', rfl⟩)
      dsimp only at hnone
      rwa [Rule.lhs_pack, ite_isNonterminal_eq_none_iff h] at hnone
  · rintro ⟨hr, hstray, hbefore⟩
    rename_i i lhs length
    refine ⟨i, _, (getElem?_rules h).mpr ⟨lhs, length, hr, rfl⟩, ?_, ?_⟩
    · dsimp only
      rw [Rule.lhs_pack, if_neg (mt (isNonterminal_parts h).mp hstray)]
    · intro j hj r hj'
      obtain ⟨lhs', length', hr', rfl⟩ := (getElem?_rules h).mp hj'
      dsimp only
      rw [Rule.lhs_pack, ite_isNonterminal_eq_none_iff h]
      exact hbefore j hj _ hr'

theorem lhsFault?_eq_none_iff (h : Frames terminalCount symbolCount ds b) :
    b.parts.lhsFault? = none ↔
      ∀ r ∈ rulesOf ds, IsOfKind terminalCount symbolCount .nonterminal r.1 := by
  rw [Parts.lhsFault?, List.findSome?_eq_none_iff]
  constructor
  · rintro hnone ⟨lhs, length⟩ hr
    obtain ⟨i, hi⟩ := List.mem_iff_getElem?.mp hr
    have hrule := hnone _ (List.mem_of_getElem? ((getElem?_rules h).mpr ⟨lhs, length, hi, rfl⟩))
    dsimp only at hrule
    rwa [Rule.lhs_pack, ite_isNonterminal_eq_none_iff h] at hrule
  · intro hall r hr
    obtain ⟨i, hi⟩ := List.mem_iff_getElem?.mp hr
    obtain ⟨lhs, length, hlhs, rfl⟩ := (getElem?_rules h).mp hi
    dsimp only
    rw [Rule.lhs_pack, ite_isNonterminal_eq_none_iff h]
    exact hall _ (List.mem_of_getElem? hlhs)

/-! ## The checks -/

theorem build_eq_error_iff : b.build = .error problem ↔
    b.fault? = some problem ∨ b.fault? = none ∧ b.parts.fault? = some problem := by
  unfold build PackedTables.ofParts
  cases b.fault? with
  | some fault => simp
  | none =>
    simp only [reduceCtorEq, true_and, false_or]
    split
    · rename_i fault hparts
      simp [hparts]
    · rename_i hparts
      simp [hparts]

/-- What is checked before the rows are packed, in order. -/
theorem fault?_eq_some_iff : b.fault? = some problem ↔ b.fault = some problem ∨ b.fault = none ∧
    (maxRules < b.rules.size ∧ .overflow .rules b.rules.size = problem ∨
      b.rules.size ≤ maxRules ∧
        (maxStates < b.stateCount ∧ .overflow .states b.stateCount = problem ∨
          b.stateCount ≤ maxStates ∧ ∃ rule, b.actions.findSome? b.undefinedRule? = some rule ∧
            .unknownRule rule = problem)) := by
  simp only [fault?, Option.orElse_eq_orElse, Option.orElse_eq_or, Option.or_eq_some_iff,
    Option.ite_none_right_eq_some, ite_eq_right_iff, reduceCtorEq, imp_false, Nat.not_lt,
    Option.map_eq_some_iff, Option.some_inj]

/-- Of the counts only that of the terminals can be out of bounds in the end. -/
theorem Frames.countFault?_parts (h : Frames terminalCount symbolCount ds b)
    (hrules : b.rules.size ≤ maxRules) (hstates : b.stateCount ≤ maxStates)
    (hpos : 0 < b.stateCount) :
    b.parts.countFault? = if 0 < terminalCount ∧ terminalCount ≤ symbolCount then none
      else some (.overflow .terminals terminalCount.toNat) := by
  have hterminals : (b.parts.terminalCount = 0 ∨ b.parts.symbolCount < b.parts.terminalCount) ↔
      ¬(0 < terminalCount ∧ terminalCount ≤ symbolCount) := by
    show (b.terminalCount = 0 ∨ b.symbolCount < b.terminalCount) ↔ _
    rw [h.terminalCount_eq, h.symbolCount_eq, not_and_or, UInt16.not_lt, UInt16.not_le,
      UInt16.le_zero_iff]
  rw [Parts.countFault?, stateCount_parts, if_neg (by omega),
    show b.parts.ruleCount = b.rules.size from rfl, if_neg (Nat.not_lt.mpr hrules)]
  simp only [hterminals, ite_not]
  rw [← h.terminalCount_eq]
  rfl

theorem Frames.rules_size (h : Frames terminalCount symbolCount ds b) :
    b.rules.size = (rulesOf ds).length := by
  rw [← Array.length_toList, h.rules_eq, List.length_map]

theorem Records.defined_iff (h : Records terminalCount symbolCount ds b)
    (hrules : b.rules.size = (rulesOf ds).length) :
    b.actions.findSome? b.undefinedRule? = none ↔
      ∀ s x rule, .reduce s x rule ∈ ds → rule.toNat < (rulesOf ds).length := by
  rw [List.findSome?_eq_none_iff]
  constructor
  · intro hdefined s x rule hd
    apply Nat.lt_of_not_le
    intro hsize
    have hnone := hdefined _ (h.mem_actions_reduce.mpr hd)
    rw [undefinedRule?_eq_some_iff.mpr ⟨rfl, hrules ▸ hsize⟩] at hnone
    cases hnone
  · rintro hdefined ⟨s, x, action⟩ hc
    rw [Option.eq_none_iff_forall_ne_some]
    intro rule hrule
    obtain ⟨haction, hsize⟩ := undefinedRule?_eq_some_iff.mp hrule
    obtain rfl : action = .reduce rule := haction
    have hlt := hdefined s x rule (h.mem_actions_reduce.mp hc)
    omega

/-- Nothing is at fault before the rows are packed just if they can be packed. -/
theorem fault?_eq_none_iff : (ofDeclarations terminalCount symbolCount ds).fault? = none ↔
    Packable terminalCount symbolCount ds := by
  have hsize := (frames_ofDeclarations terminalCount symbolCount ds).rules_size
  constructor
  · intro h
    obtain ⟨hfault, hrules, hstates, hdefined⟩ := checked_of_fault? h
    have hrecords := records_ofDeclarations hfault
    rw [stateCount_ofDeclarations hfault] at hstates
    rw [hsize] at hrules
    rw [← List.findSome?_eq_none_iff, hrecords.defined_iff hsize] at hdefined
    exact ⟨fault_eq_none_iff.mp hfault, hrules, hstates, hdefined⟩
  · rintro ⟨hconsistent, hrules, hstates, hdefined⟩
    have hfault := fault_eq_none_iff.mpr hconsistent
    rw [← stateCount_ofDeclarations hfault] at hstates
    rw [← hsize] at hrules
    rw [fault?, hfault, if_neg (Nat.not_lt.mpr hrules), if_neg (Nat.not_lt.mpr hstates),
      ((records_ofDeclarations hfault).defined_iff hsize).mpr hdefined]
    rfl

/-- What is left to check of a script that can be packed. -/
theorem fault?_parts_of_packable (h : Packable terminalCount symbolCount ds)
    (hb : ofDeclarations terminalCount symbolCount ds = b) :
    b.parts.fault? =
      ((if 0 < terminalCount ∧ terminalCount ≤ symbolCount then none
        else some (.overflow .terminals terminalCount.toNat)) <|>
      b.parts.errorSymbolFault? <|> b.parts.lhsFault?) := by
  subst hb
  obtain ⟨hfault, hrules, hstates, hdefined⟩ := checked_of_fault? (fault?_eq_none_iff.mpr h)
  have hcodes := List.findSome?_eq_none_iff.mpr
    ((records_ofDeclarations hfault).codeFault?_liveCodes hrules hstates hdefined)
  have hpos : 0 < (ofDeclarations terminalCount symbolCount ds).stateCount := by
    rw [stateCount_ofDeclarations hfault]
    exact Nat.succ_pos _
  rw [Parts.fault?, lengthFault?_parts, hcodes,
    (frames_ofDeclarations terminalCount symbolCount ds).countFault?_parts hrules hstates hpos]
  simp only [Option.orElse_eq_orElse, Option.orElse_eq_or, Option.none_or, Option.or_none]

/-- What is reported of a script. -/
theorem build_eq_error_iff_firstProblem :
    (ofDeclarations terminalCount symbolCount ds).build = .error problem ↔
      FirstProblem terminalCount symbolCount ds problem := by
  have hframes := frames_ofDeclarations terminalCount symbolCount ds
  have hsize := hframes.rules_size
  rw [build_eq_error_iff]
  constructor
  -- A fault is one of the declarations and their counts, or else one of the arrays.
  · rintro (hfault | ⟨hfault, hparts⟩)
    · rcases fault?_eq_some_iff.mp hfault with hentry | ⟨hfree, hrest⟩
      · exact .entry (fault_eq_some_iff.mp hentry)
      · have hconsistent := fault_eq_none_iff.mp hfree
        rw [hsize, stateCount_ofDeclarations hfree] at hrest
        rcases hrest with ⟨hrules, rfl⟩ | ⟨hrules, ⟨hstates, rfl⟩ | ⟨hstates, rule, hrule, rfl⟩⟩
        · exact .rules hconsistent hrules
        · exact .states hconsistent hrules hstates
        · exact .undefinedRule hconsistent hrules hstates
            (((records_ofDeclarations hfree).undefinedRule_iff hsize).mp hrule)
    · have hpackable := fault?_eq_none_iff.mp hfault
      rw [fault?_parts_of_packable hpackable rfl] at hparts
      split at hparts
      · rename_i hterminals
        simp only [Option.orElse_eq_orElse, Option.orElse_eq_or, Option.none_or,
          Option.or_eq_some_iff, errorSymbolFault?_iff hframes,
          errorSymbolFault?_eq_none_iff hframes, lhsFault?_iff hframes] at hparts
        rcases hparts with ⟨x, hx, hkind, rfl⟩ | ⟨herror, hlhs⟩
        · exact .errorSymbol hpackable hterminals hx hkind
        · exact .lhs hpackable hterminals herror hlhs
      · rename_i hterminals
        cases hparts
        exact .terminals hpackable hterminals
  -- Each problem is where the build stops, since nothing comes to light before it.
  · intro h
    cases h with
    | entry hentry => exact .inl (fault?_eq_some_iff.mpr (.inl (fault_eq_some_iff.mpr hentry)))
    | rules hconsistent hrules =>
      have hfree := fault_eq_none_iff.mpr hconsistent
      rw [← hsize] at hrules ⊢
      exact .inl (fault?_eq_some_iff.mpr (.inr ⟨hfree, .inl ⟨hrules, rfl⟩⟩))
    | states hconsistent hrules hstates =>
      have hfree := fault_eq_none_iff.mpr hconsistent
      rw [← stateCount_ofDeclarations hfree] at hstates ⊢
      rw [← hsize] at hrules
      exact .inl (fault?_eq_some_iff.mpr (.inr ⟨hfree, .inr ⟨hrules, .inl ⟨hstates, rfl⟩⟩⟩))
    | undefinedRule hconsistent hrules hstates hrule =>
      have hfree := fault_eq_none_iff.mpr hconsistent
      rw [← stateCount_ofDeclarations hfree] at hstates
      rw [← (records_ofDeclarations hfree).undefinedRule_iff hsize] at hrule
      rw [← hsize] at hrules
      exact .inl (fault?_eq_some_iff.mpr
        (.inr ⟨hfree, .inr ⟨hrules, .inr ⟨hstates, _, hrule, rfl⟩⟩⟩))
    | terminals hpackable hterminals =>
      refine .inr ⟨fault?_eq_none_iff.mpr hpackable, ?_⟩
      rw [fault?_parts_of_packable hpackable rfl, if_neg hterminals]
      rfl
    | errorSymbol hpackable hterminals hx hkind =>
      refine .inr ⟨fault?_eq_none_iff.mpr hpackable, ?_⟩
      rw [fault?_parts_of_packable hpackable rfl, if_pos hterminals,
        (errorSymbolFault?_iff hframes).mpr ⟨_, hx, hkind, rfl⟩]
      rfl
    | lhs hpackable hterminals herror hlhs =>
      refine .inr ⟨fault?_eq_none_iff.mpr hpackable, ?_⟩
      rw [fault?_parts_of_packable hpackable rfl, if_pos hterminals,
        (errorSymbolFault?_eq_none_iff hframes).mpr herror, (lhsFault?_iff hframes).mpr hlhs]
      rfl

/-- Which scripts make a table. -/
theorem exists_build_iff_wellFormed :
    (∃ t, (ofDeclarations terminalCount symbolCount ds).build = .ok t) ↔
      WellFormed terminalCount symbolCount ds := by
  have hframes := frames_ofDeclarations terminalCount symbolCount ds
  -- Each condition is one of the checks, those of the declarations first.
  have hchecks : WellFormed terminalCount symbolCount ds ↔
      (ofDeclarations terminalCount symbolCount ds).fault? = none ∧
        (ofDeclarations terminalCount symbolCount ds).parts.fault? = none := by
    rw [fault?_eq_none_iff]
    constructor
    · rintro ⟨hpackable, hterminals, herror, hlhs⟩
      rw [fault?_parts_of_packable hpackable rfl, if_pos hterminals,
        (errorSymbolFault?_eq_none_iff hframes).mpr herror,
        (lhsFault?_eq_none_iff hframes).mpr hlhs]
      exact ⟨hpackable, rfl⟩
    · rintro ⟨hpackable, hparts⟩
      rw [fault?_parts_of_packable hpackable rfl] at hparts
      split at hparts
      · rename_i hterminals
        simp only [Option.orElse_eq_orElse, Option.orElse_eq_or, Option.none_or,
          Option.or_eq_none_iff, errorSymbolFault?_eq_none_iff hframes,
          lhsFault?_eq_none_iff hframes] at hparts
        exact ⟨hpackable, hterminals, hparts.1, hparts.2⟩
      · cases hparts
  rw [hchecks]
  constructor
  · rintro ⟨t, h⟩
    obtain ⟨ht, hfault⟩ := parts_of_build h
    exact ⟨hfault, ht ▸ t.sound⟩
  · rintro ⟨hfault, hsound⟩
    exact ⟨_, build_of_sound hfault hsound⟩

/-- A script makes a table just if it is well-formed, and of any other script the first problem is
reported. -/
theorem build_decides_wellFormed (terminalCount symbolCount : UInt16) (ds : List Declaration) :
    ((∃ t, (ofDeclarations terminalCount symbolCount ds).build = .ok t) ↔
      WellFormed terminalCount symbolCount ds) ∧
    ∀ problem, (ofDeclarations terminalCount symbolCount ds).build = .error problem ↔
      FirstProblem terminalCount symbolCount ds problem :=
  ⟨exists_build_iff_wellFormed, fun _ => build_eq_error_iff_firstProblem⟩

end Builder

end ShiftReduce.Tables
