import Mathlib.Data.List.Induction
import ShiftReduce.Proofs.Tables.Building

/-!
# Scripts of declarations

A script is a list of declarations. By itself it says which rules there are, which entries are
declared and in which order, how many states they name and which symbol is the error symbol.
Entries can stand in one table if they are `Consistent`; if they are not, there is a first one
that `Offends` those before it.

* `Builder.frames_ofDeclarations`: a builder keeps the rules and the error symbol of its script,
  whatever else is wrong.
* `Builder.stateCount_ofDeclarations`: without a fault it has counted the states of the script.
* `Builder.fault_eq_none_iff` and `Builder.fault_eq_some_iff`: a builder remembers the first
  offence, and nothing if the entries are consistent.
-/

namespace ShiftReduce.Tables

variable {terminalCount symbolCount : UInt16} {ds : List Declaration} {d : Declaration}
  {kind : SymbolKind} {c : Cell} {s : StateId} {x : SymbolId} {rule : RuleId} {action : Action}
  {fault fault' : TableError}

/-! ## What a script says -/

/-- The entries that are declared, in order, and for which kind of symbol each of them is. -/
def entriesOf (terminalCount : UInt16) (ds : List Declaration) : List (SymbolKind × Cell) :=
  ds.filterMap (Declaration.entry? terminalCount)

/-- The rule that a declaration is about: what it produces, and its length. -/
def Declaration.rule? : Declaration → Option (SymbolId × UInt16)
  | .rule lhs length => some (lhs, length)
  | _ => none

/-- The error symbol that a declaration is about. -/
def Declaration.errorSymbol? : Declaration → Option SymbolId
  | .errorSymbol x => some x
  | _ => none

def rulesOf (ds : List Declaration) : List (SymbolId × UInt16) := ds.filterMap Declaration.rule?

/-- The error symbol. Of several declarations the last one counts. -/
def errorSymbolOf (ds : List Declaration) : Option SymbolId :=
  (ds.filterMap Declaration.errorSymbol?).getLast?

def Cell.states (c : Cell) : List StateId :=
  match c.action with
  | .shift target => [c.state, target]
  | _ => [c.state]

/-- One past the largest state that entries name. There is always the start state. -/
def stateCountOf (entries : List (SymbolKind × Cell)) : Nat :=
  ((entries.flatMap fun e => e.2.states).map UInt16.toNat).foldr max 0 + 1

def IsOfKind (terminalCount symbolCount : UInt16) : SymbolKind → SymbolId → Prop
  | .terminal, x => x < terminalCount
  | .nonterminal, x => terminalCount ≤ x ∧ x < symbolCount

/-- Entries that can stand in one table: none of them enters the start state, each is for a symbol
of its kind, and there are no two actions for one symbol of a kind in one state. -/
structure Consistent (terminalCount symbolCount : UInt16) (entries : List (SymbolKind × Cell)) :
    Prop where
  entersNoStart : ∀ kind c, (kind, c) ∈ entries → c.action ≠ .shift startState
  ofKind : ∀ kind c, (kind, c) ∈ entries → IsOfKind terminalCount symbolCount kind c.symbol
  agree : ∀ kind c c', (kind, c) ∈ entries → (kind, c') ∈ entries → c.state = c'.state →
    c.symbol = c'.symbol → c.action = c'.action

/-- What is wrong with an entry behind others. -/
inductive Offends (terminalCount symbolCount : UInt16) (before : List (SymbolKind × Cell)) :
    SymbolKind × Cell → TableError → Prop
  | entersStart {kind : SymbolKind} {c : Cell} : c.action = .shift startState →
      Offends terminalCount symbolCount before (kind, c) (.shiftToStartState c.state)
  | wrongKind {kind : SymbolKind} {c : Cell} : c.action ≠ .shift startState →
      ¬IsOfKind terminalCount symbolCount kind c.symbol →
      Offends terminalCount symbolCount before (kind, c) (.wrongSymbolKind c.state c.symbol kind)
  | conflict {kind : SymbolKind} {c c' : Cell} : c.action ≠ .shift startState →
      IsOfKind terminalCount symbolCount kind c.symbol → (kind, c') ∈ before →
      c'.state = c.state → c'.symbol = c.symbol → c'.action ≠ c.action →
      Offends terminalCount symbolCount before (kind, c) (.conflict c.state c.symbol)

/-- What is wrong with the first entry that cannot stand in one table with those before it. -/
inductive FirstOffence (terminalCount symbolCount : UInt16) (entries : List (SymbolKind × Cell)) :
    TableError → Prop
  | intro {before : List (SymbolKind × Cell)} {entry : SymbolKind × Cell} {fault : TableError} :
      before ++ [entry] <+: entries → Consistent terminalCount symbolCount before →
      Offends terminalCount symbolCount before entry fault →
      FirstOffence terminalCount symbolCount entries fault

variable {entries before after : List (SymbolKind × Cell)} {entry : SymbolKind × Cell}

theorem filterMap_snoc {α β : Type} (f : α → Option β) (as : List α) (a : α) :
    (as ++ [a]).filterMap f = as.filterMap f ++ (f a).toList := by
  rw [List.filterMap_append]
  cases h : f a <;> simp [h]

theorem entriesOf_snoc (ds : List Declaration) (d : Declaration) :
    entriesOf terminalCount (ds ++ [d]) =
      entriesOf terminalCount ds ++ (d.entry? terminalCount).toList :=
  filterMap_snoc _ _ _

/-- A reduction is an entry where it is declared. -/
theorem mem_entriesOf_reduce : (kind, ⟨s, x, .reduce rule⟩) ∈ entriesOf terminalCount ds ↔
    kind = .terminal ∧ .reduce s x rule ∈ ds := by
  rw [entriesOf, List.mem_filterMap]
  constructor
  · rintro ⟨d, hd, hentry⟩
    cases d <;> cases hentry
    exact ⟨rfl, hd⟩
  · rintro ⟨rfl, hd⟩
    exact ⟨_, hd, rfl⟩

/-- What is recorded has been declared. -/
theorem mem_entriesOf_of_recorded (h : recorded? terminalCount ds kind s x = some action) :
    (kind, ⟨s, x, action⟩) ∈ entriesOf terminalCount ds := by
  obtain ⟨d, hd, hd'⟩ := List.exists_of_findSome?_eq_some h
  unfold Declaration.action? at hd'
  split at hd'
  · rename_i k c hentry
    split at hd'
    · rename_i hplace
      obtain ⟨rfl, rfl, rfl⟩ := hplace
      cases hd'
      exact List.mem_filterMap.mpr ⟨d, hd, hentry⟩
    · cases hd'
  · cases hd'

/-! ## Consistent entries -/

theorem Consistent.of_subset (h : Consistent terminalCount symbolCount entries)
    (hsubset : before ⊆ entries) : Consistent terminalCount symbolCount before where
  entersNoStart kind c hc := h.entersNoStart kind c (hsubset hc)
  ofKind kind c hc := h.ofKind kind c (hsubset hc)
  agree kind c c' hc hc' := h.agree kind c c' (hsubset hc) (hsubset hc')

/-- An entry that offends those before it cannot stand with them in one table. -/
theorem Offends.not_consistent (h : Offends terminalCount symbolCount before entry fault) :
    ¬Consistent terminalCount symbolCount (before ++ [entry]) := by
  intro hall
  have hlast : entry ∈ before ++ [entry] := by simp
  cases h with
  | entersStart hstart => exact hall.entersNoStart _ _ hlast hstart
  | wrongKind _ hkind => exact hkind (hall.ofKind _ _ hlast)
  | conflict _ _ hbefore hstate hsymbol hne =>
    exact hne (hall.agree _ _ _ (List.mem_append_left _ hbefore) hlast hstate hsymbol)

theorem Offends.unique (h : Offends terminalCount symbolCount before entry fault)
    (h' : Offends terminalCount symbolCount before entry fault') : fault = fault' := by
  cases h <;> cases h' <;> first | rfl | contradiction

/-- Entries with an offence are not consistent. -/
theorem FirstOffence.not_consistent (h : FirstOffence terminalCount symbolCount entries fault) :
    ¬Consistent terminalCount symbolCount entries := by
  obtain ⟨hinitial, -, hoffends⟩ := h
  exact fun hall => hoffends.not_consistent (hall.of_subset hinitial.subset)

/-- An offence stays the first one, whatever is declared behind it. -/
theorem FirstOffence.append (h : FirstOffence terminalCount symbolCount entries fault)
    (more : List (SymbolKind × Cell)) :
    FirstOffence terminalCount symbolCount (entries ++ more) fault := by
  obtain ⟨hinitial, hconsistent, hoffends⟩ := h
  exact .intro (hinitial.trans (List.prefix_append _ _)) hconsistent hoffends

/-- There is one first offence. -/
theorem FirstOffence.unique (h : FirstOffence terminalCount symbolCount entries fault)
    (h' : FirstOffence terminalCount symbolCount entries fault') : fault = fault' := by
  -- Of two places the later one would have the offence at the earlier one in front of it.
  have hsame : ∀ {b b' : List (SymbolKind × Cell)} {e e' : SymbolKind × Cell} {f f' : TableError},
      b ++ [e] <+: b' ++ [e'] → Consistent terminalCount symbolCount b' →
      Offends terminalCount symbolCount b e f → Offends terminalCount symbolCount b' e' f' →
      f = f' := by
    intro b b' e e' f f' hle hconsistent hoffends hoffends'
    rcases List.prefix_concat_iff.mp hle with heq | hlt
    · obtain ⟨rfl, hlast⟩ := List.append_inj' heq rfl
      cases hlast
      exact hoffends.unique hoffends'
    · exact absurd (hconsistent.of_subset hlt.subset) hoffends.not_consistent
  obtain ⟨hinitial, hconsistent, hoffends⟩ := h
  obtain ⟨hinitial', hconsistent', hoffends'⟩ := h'
  rcases List.prefix_or_prefix_of_prefix hinitial hinitial' with hle | hle
  · exact hsame hle hconsistent' hoffends hoffends'
  · exact (hsame hle hconsistent hoffends' hoffends).symm

/-! ## What a builder makes of a script -/

namespace Builder

variable {b : Builder}

theorem ofDeclarations_snoc (ds : List Declaration) (d : Declaration) :
    ofDeclarations terminalCount symbolCount (ds ++ [d]) =
      (ofDeclarations terminalCount symbolCount ds).declare d := by
  rw [ofDeclarations, List.foldl_append]
  rfl

theorem isOfKind_iff : b.isOfKind kind x = true ↔
    IsOfKind b.terminalCount b.symbolCount kind x := by
  cases kind <;> simp [isOfKind, IsOfKind]

/-- What recording an entry does not touch. -/
structure Keeps (b b' : Builder) : Prop where
  rules_eq : b'.rules = b.rules
  errorSymbol_eq : b'.errorSymbol = b.errorSymbol
  compressed_eq : b'.compressed = b.compressed
  terminalCount_eq : b'.terminalCount = b.terminalCount
  symbolCount_eq : b'.symbolCount = b.symbolCount

theorem keeps_record (b : Builder) (kind : SymbolKind) (c : Cell) : Keeps b (b.record kind c) := by
  unfold record
  split
  · dsimp only
    split
    · split <;> exact ⟨rfl, rfl, rfl, rfl, rfl⟩
    · cases kind <;> exact ⟨rfl, rfl, rfl, rfl, rfl⟩
  · exact ⟨rfl, rfl, rfl, rfl, rfl⟩

theorem keeps_enter (b : Builder) (kind : SymbolKind) (s : StateId) (x : SymbolId)
    (target : StateId) : Keeps b (b.enter kind s x target) := by
  unfold enter
  split
  · exact ⟨rfl, rfl, rfl, rfl, rfl⟩
  · exact keeps_record _ _ _

/-- A declaration of an entry does nothing else. -/
theorem keeps_declare (h : d.entry? terminalCount = some entry) : Keeps b (b.declare d) := by
  cases d with
  | shift s x target => exact keeps_enter _ _ _ _ _
  | goto s x target => exact keeps_enter _ _ _ _ _
  | reduce s x rule => exact keeps_record _ _ _
  | accept s x => exact keeps_record _ _ _
  | rule lhs length => cases h
  | errorSymbol x => cases h
  | compressed on => cases h

/-- A builder has what a script says besides its entries. -/
structure Frames (terminalCount symbolCount : UInt16) (ds : List Declaration) (b : Builder) :
    Prop where
  rules_eq : b.rules.toList = (rulesOf ds).map fun r => Rule.pack r.1 r.2
  errorSymbol_eq : b.errorSymbol = errorSymbolOf ds
  compressed_eq : b.compressed = compressedBy ds
  terminalCount_eq : b.terminalCount = terminalCount
  symbolCount_eq : b.symbolCount = symbolCount

/-- A builder keeps it whether or not an entry is at fault. -/
theorem frames_ofDeclarations (terminalCount symbolCount : UInt16) (ds : List Declaration) :
    Frames terminalCount symbolCount ds (ofDeclarations terminalCount symbolCount ds) := by
  -- By induction from the end of the script, where a declaration is added.
  induction ds using List.reverseRecOn with
  | nil => exact ⟨rfl, rfl, rfl, rfl, rfl⟩
  | append_singleton ds d ih =>
    obtain ⟨hrules, herror, hcompressed, hterminals, hsymbols⟩ := ih
    rw [ofDeclarations_snoc]
    generalize ofDeclarations terminalCount symbolCount ds = b at *
    cases hentry : d.entry? terminalCount with
    | some entry =>
      -- An entry is recorded among the cells and nowhere else.
      have hkeeps := keeps_declare (b := b) hentry
      have hother : d.rule? = none ∧ d.errorSymbol? = none := by
        cases d <;> first | exact ⟨rfl, rfl⟩ | cases hentry
      constructor
      · rw [hkeeps.rules_eq, hrules, rulesOf, rulesOf, filterMap_snoc, hother.1]
        simp
      · rw [hkeeps.errorSymbol_eq, herror, errorSymbolOf, errorSymbolOf, filterMap_snoc, hother.2]
        simp
      · rw [hkeeps.compressed_eq, hcompressed, compressedBy_snoc_of_entry? hentry]
      · rw [hkeeps.terminalCount_eq, hterminals]
      · rw [hkeeps.symbolCount_eq, hsymbols]
    | none =>
      refine ⟨?_, ?_, ?_, ?_, ?_⟩
      · rw [rulesOf, filterMap_snoc, List.map_append]
        show _ = (rulesOf ds).map _ ++ _
        rw [← hrules]
        cases d with
        | rule lhs length => exact Array.toList_push
        | errorSymbol x => exact (List.append_nil _).symm
        | compressed on => exact (List.append_nil _).symm
        | _ => cases hentry
      · rw [errorSymbolOf, filterMap_snoc]
        cases d with
        | errorSymbol x => exact List.getLast?_concat.symm
        | rule lhs length =>
          show b.errorSymbol = (_ ++ []).getLast?
          rw [List.append_nil, herror, errorSymbolOf]
        | compressed on =>
          show b.errorSymbol = (_ ++ []).getLast?
          rw [List.append_nil, herror, errorSymbolOf]
        | _ => cases hentry
      · rw [compressedBy, List.foldl_append]
        cases d <;> first | exact hcompressed | rfl | cases hentry
      · rw [(counts_declare hentry).1, hterminals]
      · rw [(counts_declare hentry).2.1, hsymbols]

/-! ### States -/

theorem foldr_max_le_iff {ns : List Nat} {n : Nat} : ns.foldr max 0 ≤ n ↔ ∀ m ∈ ns, m ≤ n := by
  induction ns with
  | nil => simp
  | cons m ns ih => rw [List.foldr_cons, Nat.max_le, ih, List.forall_mem_cons]

/-- A bound of the states is one of the states that each entry names. -/
theorem stateCountOf_le_iff {n : Nat} :
    stateCountOf entries ≤ n ↔ 1 ≤ n ∧ ∀ e ∈ entries, statesNamed e.2 ≤ n := by
  have hnamed : ∀ c : Cell, statesNamed c ≤ n ↔ ∀ s ∈ c.states, s.toNat < n := by
    intro c
    cases haction : c.action <;>
      simp only [statesNamed, Cell.states, haction, Nat.max_le, Nat.lt_iff_add_one_le,
        List.forall_mem_cons, List.not_mem_nil, false_implies, implies_true, and_true]
  obtain - | n := n
  · simp [stateCountOf]
  · rw [stateCountOf, Nat.succ_le_succ_iff, foldr_max_le_iff]
    constructor
    · intro h
      refine ⟨Nat.succ_le_succ (Nat.zero_le n), fun e he => (hnamed e.2).mpr fun s hs => ?_⟩
      exact Nat.lt_succ_of_le
        (h _ (List.mem_map_of_mem (List.mem_flatMap.mpr ⟨e, he, hs⟩)))
    · rintro ⟨-, h⟩ _ hm
      obtain ⟨s, hs, rfl⟩ := List.mem_map.mp hm
      obtain ⟨e, he, hs⟩ := List.mem_flatMap.mp hs
      exact Nat.le_of_lt_succ ((hnamed e.2).mp (h e he) s hs)

theorem stateCountOf_snoc (entries : List (SymbolKind × Cell)) (kind : SymbolKind) (c : Cell) :
    stateCountOf (entries ++ [(kind, c)]) = max (stateCountOf entries) (statesNamed c) := by
  apply eq_of_forall_ge_iff
  intro n
  rw [stateCountOf_le_iff, Nat.max_le, stateCountOf_le_iff, List.forall_mem_append,
    List.forall_mem_singleton, and_assoc]

/-- Without a fault a builder has counted the states that its entries name. -/
theorem stateCount_ofDeclarations (h : (ofDeclarations terminalCount symbolCount ds).fault = none) :
    (ofDeclarations terminalCount symbolCount ds).stateCount =
      stateCountOf (entriesOf terminalCount ds) := by
  induction ds using List.reverseRecOn with
  | nil => rfl
  | append_singleton ds d ih =>
    have hterminals := (frames_ofDeclarations terminalCount symbolCount ds).terminalCount_eq
    rw [ofDeclarations_snoc] at h ⊢
    have hcount := ih (faultless_of_declare h)
    rw [entriesOf_snoc]
    cases hentry : d.entry? terminalCount with
    | none =>
      rw [(counts_declare hentry).2.2, hcount]
      exact congrArg stateCountOf (List.append_nil _).symm
    | some entry =>
      rw [← hterminals] at hentry
      obtain ⟨hrecord, -⟩ := declare_of_entry? h hentry
      rw [hrecord] at h ⊢
      rw [(record_spec h).stateCount_eq, hcount]
      exact (stateCountOf_snoc _ _ _).symm

/-! ### Faults -/

/-- What a builder has kept is what has been declared. -/
theorem Records.mem_cells_iff_mem_entriesOf (h : Records terminalCount symbolCount ds b) :
    c ∈ b.cells kind ↔ (kind, c) ∈ entriesOf terminalCount ds := by
  rw [h.mem_cells_iff kind]
  constructor
  · exact mem_entriesOf_of_recorded
  · intro hc
    obtain ⟨d, hd, hentry⟩ := List.mem_filterMap.mp hc
    exact h.declared d hd kind c hentry

/-- It can stand in one table. -/
theorem Records.consistent (h : Records terminalCount symbolCount ds b) :
    Consistent terminalCount symbolCount (entriesOf terminalCount ds) where
  entersNoStart kind c hc := (h.proper kind c (h.mem_cells_iff_mem_entriesOf.mpr hc)).1
  ofKind kind c hc := by
    have hkind := isOfKind_iff.mp (h.isOfKind kind c (h.mem_cells_iff_mem_entriesOf.mpr hc))
    rwa [h.terminalCount_eq, h.symbolCount_eq] at hkind
  agree kind c c' hc hc' hstate hsymbol := by
    have hfound := (h.mem_cells_iff kind).mp (h.mem_cells_iff_mem_entriesOf.mpr hc)
    have hfound' := (h.mem_cells_iff kind).mp (h.mem_cells_iff_mem_entriesOf.mpr hc')
    rw [hstate, hsymbol, hfound'] at hfound
    exact (Option.some.inj hfound).symm

/-- A fault is remembered, whatever is declared behind it. -/
theorem fault_declare (h : b.fault = some fault) : (b.declare d).fault = some fault := by
  have hfail : ∀ f, (b.fail f).fault = some fault := by
    intro f
    rw [fail, h]
    rfl
  have hrecord : ∀ kind c, (b.record kind c).fault = some fault := by
    intro kind c
    unfold record
    split
    · dsimp only
      split
      · split
        · exact h
        · exact hfail _
      · cases kind <;> exact h
    · exact hfail _
  have henter : ∀ kind s x target, (b.enter kind s x target).fault = some fault := by
    intro kind s x target
    unfold enter
    split
    · exact hfail _
    · exact hrecord _ _
  -- A fault stays, whether something is recorded or fails.
  cases d with
  | shift s x target => exact henter _ _ _ _
  | goto s x target => exact henter _ _ _ _
  | reduce s x rule => exact hrecord _ _
  | accept s x => exact hrecord _ _
  | rule lhs length => exact h
  | errorSymbol x => exact h
  | compressed on => exact h

/-- A fault is remembered only for an entry that offends what is declared before it. -/
theorem Records.offends_of_record (h : Records terminalCount symbolCount ds b)
    (hfree : b.fault = none) (hstart : c.action ≠ .shift startState)
    (hfault : (b.record kind c).fault = some fault) :
    Offends terminalCount symbolCount (entriesOf terminalCount ds) (kind, c) fault := by
  have hfail : ∀ {b' : Builder} {f : TableError}, b'.fault = none →
      (b'.fail f).fault = some fault → f = fault := by
    intro b' f hb' hf
    rw [fail, hb'] at hf
    exact Option.some.inj hf
  have hkind : b.isOfKind kind c.symbol = true ↔
      IsOfKind terminalCount symbolCount kind c.symbol := by
    rw [isOfKind_iff, h.terminalCount_eq, h.symbolCount_eq]
  -- Recording fails for a symbol of the wrong kind and at a place with another action.
  unfold Builder.record at hfault
  split at hfault
  · rename_i hof
    dsimp only at hfault
    split at hfault
    · rename_i action hfound
      split at hfault
      · rw [hfree] at hfault
        cases hfault
      · rename_i hne
        obtain rfl := hfail (by exact hfree) hfault
        have hrecorded : recorded? terminalCount ds kind c.state c.symbol = some action := by
          rw [← h.found, ← hfound]
          cases kind <;> rfl
        exact .conflict hstart (hkind.mp hof) (mem_entriesOf_of_recorded hrecorded) rfl rfl hne
    · cases kind <;> exact nomatch hfree.symm.trans hfault
  · rename_i hof
    obtain rfl := hfail hfree hfault
    exact .wrongKind hstart (mt hkind.mpr hof)

theorem Records.offends_of_declare (h : Records terminalCount symbolCount ds b)
    (hfree : b.fault = none) (hfault : (b.declare d).fault = some fault) :
    ∃ entry, d.entry? terminalCount = some entry ∧
      Offends terminalCount symbolCount (entriesOf terminalCount ds) entry fault := by
  have henter : ∀ {kind s x target}, (b.enter kind s x target).fault = some fault →
      Offends terminalCount symbolCount (entriesOf terminalCount ds)
        (kind, ⟨s, x, .shift target⟩) fault := by
    intro kind s x target hfault
    unfold enter at hfault
    split at hfault
    · rename_i htarget
      rw [fail, hfree] at hfault
      cases hfault
      exact .entersStart (congrArg Action.shift htarget)
    · rename_i htarget
      exact h.offends_of_record hfree (fun heq => htarget (Action.shift.inj heq)) hfault
  cases d with
  | shift s x target => exact ⟨_, rfl, henter hfault⟩
  | goto s x target => exact ⟨_, rfl, henter hfault⟩
  | reduce s x rule => exact ⟨_, rfl, h.offends_of_record hfree Action.noConfusion hfault⟩
  | accept s x =>
    rw [Builder.declare, h.terminalCount_eq] at hfault
    exact ⟨_, rfl, h.offends_of_record hfree Action.noConfusion hfault⟩
  | rule lhs length => cases hfree.symm.trans hfault
  | errorSymbol x => cases hfree.symm.trans hfault
  | compressed on => cases hfree.symm.trans hfault

/-- A builder remembers the first offence of its script, if there is one. -/
theorem fault_spec (terminalCount symbolCount : UInt16) (ds : List Declaration) :
    match (ofDeclarations terminalCount symbolCount ds).fault with
    | none => Consistent terminalCount symbolCount (entriesOf terminalCount ds)
    | some fault => FirstOffence terminalCount symbolCount (entriesOf terminalCount ds) fault := by
  induction ds using List.reverseRecOn with
  | nil => exact (records_new terminalCount symbolCount).consistent
  | append_singleton ds d ih =>
    cases hnow : (ofDeclarations terminalCount symbolCount (ds ++ [d])).fault with
    | none => exact (records_ofDeclarations hnow).consistent
    | some fault =>
      show FirstOffence terminalCount symbolCount _ fault
      rw [entriesOf_snoc]
      rw [ofDeclarations_snoc] at hnow
      cases hbefore : (ofDeclarations terminalCount symbolCount ds).fault with
      | none =>
        rw [hbefore] at ih
        obtain ⟨entry, hentry, hoffends⟩ :=
          (records_ofDeclarations hbefore).offends_of_declare hbefore hnow
        rw [hentry]
        exact .intro (List.prefix_refl _) ih hoffends
      | some fault' =>
        rw [hbefore] at ih
        rw [fault_declare hbefore] at hnow
        cases hnow
        exact ih.append _

/-- There is no fault just if the entries are consistent. -/
theorem fault_eq_none_iff : (ofDeclarations terminalCount symbolCount ds).fault = none ↔
    Consistent terminalCount symbolCount (entriesOf terminalCount ds) := by
  have hspec := fault_spec terminalCount symbolCount ds
  cases hfault : (ofDeclarations terminalCount symbolCount ds).fault with
  | none =>
    rw [hfault] at hspec
    exact iff_of_true rfl hspec
  | some fault =>
    rw [hfault] at hspec
    exact iff_of_false (Option.some_ne_none _) hspec.not_consistent

/-- The fault is that of the first entry that offends those before it. -/
theorem fault_eq_some_iff : (ofDeclarations terminalCount symbolCount ds).fault = some fault ↔
    FirstOffence terminalCount symbolCount (entriesOf terminalCount ds) fault := by
  have hspec := fault_spec terminalCount symbolCount ds
  cases hfault : (ofDeclarations terminalCount symbolCount ds).fault with
  | none =>
    rw [hfault] at hspec
    exact iff_of_false (Option.some_ne_none _).symm fun h => h.not_consistent hspec
  | some fault' =>
    rw [hfault] at hspec
    constructor
    · intro heq
      cases heq
      exact hspec
    · intro h
      rw [hspec.unique h]

end Builder

end ShiftReduce.Tables
