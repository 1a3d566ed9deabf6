import ShiftReduce.Tables.Lookaheads
import ShiftReduce.Proofs.Tables.Closure

/-!
# The lookaheads of a state

Recovery takes its candidates from the lookaheads of a state, and the parser decides by the
actions. The two go different ways through the arrays: the one looks at the code of a slot, the
other decodes it. They agree (`hasLookahead_spec`), so the lookaheads are the terminals that have
an action.

* `Lookaheads.Delivers`: what an iteration delivers from one place to its end.
* `Lookaheads.Reaches`: the places of an iteration.
* `exists_delivers`: every iteration ends, within the bound that it gives for its length.
* `Reaches.within`: no place is past the terminals, so this bound does not wrap.
* `PackedTables.lookaheads_are_the_valid_terminals`: an iteration delivers the terminals with an
  action in ascending order, and the first terminal is the least of them.
-/

namespace ShiftReduce

theorem Action.decode_eq_error_iff (code : Int16) (ruleCount : Nat) :
    decode code ruleCount = .error ↔ code = 0 := by
  unfold decode
  split
  · rename_i hpos
    simp only [reduceCtorEq, false_iff]
    rintro rfl
    exact absurd hpos (by decide)
  · split
    · rename_i hzero
      simp [hzero]
    · rename_i hzero
      simp only [hzero, iff_false]
      split <;> simp

namespace PackedTables

variable {t : PackedTables} {s : StateId} {x : SymbolId} {valid : Bool}

/-- In tables without defaults, a terminal is valid if its action is not the error
action. -/
theorem hasLookahead_spec (h : t.hasLookahead s x = .ok valid) (hplain : t.compressed = false) :
    valid = decide (t.action s x ≠ .ok .error) := by
  obtain ⟨offset, hoffset, h⟩ := bind_eq_ok.mp h
  have haction : t.action s x = .ok (.decode ((t.entry? offset x).getD 0) t.ruleCount) := by
    rw [action, actionCode, hoffset]
    simp only [ok_bind]
    cases t.entry? offset x with
    | some code => rfl
    | none =>
      rw [hplain]
      rfl
  rw [haction]
  cases hentry : t.entry? offset x with
  | some code =>
    simp only [hentry] at h
    cases h
    simp only [Option.getD_some, ne_eq, Except.ok.injEq, Action.decode_eq_error_iff]
    by_cases hcode : code = 0
    · simp [hcode]
    · simp [hcode]
  | none =>
    simp only [hentry] at h
    cases h
    simp [Action.decode_eq_error_iff]

/-- In a state of the table it is always known whether a terminal is valid. -/
theorem exists_hasLookahead (hs : s.toNat < t.stateCount) (x : SymbolId) :
    ∃ valid, t.hasLookahead s x = .ok valid := by
  obtain ⟨⟨offset, hoffset⟩, -⟩ := exists_offsets hs
  rw [hasLookahead, hoffset, ok_bind]
  cases t.entry? offset x with
  | some code => exact ⟨_, rfl⟩
  | none => exact ⟨_, rfl⟩

end PackedTables

namespace Lookaheads

variable {c c' c'' : Lookaheads} {x : SymbolId} {xs : List SymbolId} {valid : Bool}

/-- The terminals still to come are those that are valid. -/
theorem toList_spec (h : c.toList = .ok xs) (hplain : c.tables.compressed = false) :
    xs = ((List.range' c.next (c.stop - c.next)).map UInt16.ofNat).filter
      fun x => decide (c.tables.action c.state x ≠ .ok .error) := by
  -- By induction on the number of terminals still to look at.
  induction hsteps : c.stop - c.next generalizing c xs with
  | zero =>
    rw [toList, dif_neg (by omega)] at h
    cases h
    rfl
  | succ steps ih =>
    rw [toList, dif_pos (by omega)] at h
    obtain ⟨valid, hvalid, h⟩ := bind_eq_ok.mp h
    obtain ⟨rest, hrest, h⟩ := bind_eq_ok.mp h
    cases h
    have hlater := ih hrest hplain (by simp only; omega)
    rw [List.range'_succ, List.map_cons, List.filter_cons, ← hlater,
      PackedTables.hasLookahead_spec hvalid hplain]

/-! ## Iterations -/

/-- An iteration from a place delivers these terminals, one after the other, and then ends. -/
inductive Delivers : Lookaheads → List SymbolId → Prop
  | done (c : Lookaheads) : c.next? = .ok none → Delivers c []
  | next (c c' : Lookaheads) (x : SymbolId) (xs : List SymbolId) :
      c.next? = .ok (some (x, c')) → Delivers c' xs → Delivers c (x :: xs)

/-- The places an iteration comes to. Behind its end it stays past the last terminal. -/
inductive Reaches (c : Lookaheads) : Lookaheads → Prop
  | here : Reaches c c
  | next (c' c'' : Lookaheads) (x : SymbolId) :
      Reaches c c' → c'.next? = .ok (some (x, c'')) → Reaches c c''
  | finished (c' : Lookaheads) :
      Reaches c c' → c'.next? = .ok none → Reaches c { c' with next := c'.stop }

theorem next?_of_le (h : c.stop ≤ c.next) : c.next? = .ok none := by
  rw [next?, dif_neg (by omega)]

/-- The next terminal is the one at the place if it is valid. Otherwise it is looked for behind. -/
theorem next?_of_lt (h : c.next < c.stop)
    (hvalid : c.tables.hasLookahead c.state (UInt16.ofNat c.next) = .ok valid) :
    c.next? = if valid then .ok (some (UInt16.ofNat c.next, { c with next := c.next + 1 }))
      else { c with next := c.next + 1 : Lookaheads }.next? := by
  rw [next?, dif_pos h]
  simp only [hvalid, ok_bind]
  rfl

/-- What an iteration delivers is determined by its next terminal. -/
theorem Delivers.of_next?_eq (h : Delivers c xs) (heq : c'.next? = c.next?) : Delivers c' xs := by
  cases h with
  | done _ hnext => exact .done _ (heq.trans hnext)
  | next _ _ _ _ hnext hrest => exact .next _ _ _ _ (heq.trans hnext) hrest

/-- One call for all the terminals and one for each of them come to the same. -/
theorem delivers_of_toList (h : c.toList = .ok xs) : c.Delivers xs := by
  induction hsteps : c.stop - c.next generalizing c xs with
  | zero =>
    rw [toList, dif_neg (by omega)] at h
    cases h
    exact .done _ (next?_of_le (by omega))
  | succ steps ih =>
    have hlt : c.next < c.stop := by omega
    rw [toList, dif_pos hlt] at h
    obtain ⟨valid, hvalid, h⟩ := bind_eq_ok.mp h
    obtain ⟨rest, hrest, h⟩ := bind_eq_ok.mp h
    cases h
    have hlater := ih hrest (by simp only; omega)
    have hnext := next?_of_lt hlt hvalid
    cases valid with
    | true => exact .next _ _ _ _ hnext hlater
    | false => exact hlater.of_next?_eq hnext

/-- In a state of the table all the terminals can be had, and there are no more of them than the
bound says. -/
theorem exists_toList (hs : c.state.toNat < c.tables.stateCount) :
    ∃ xs, c.toList = .ok xs ∧ xs.length ≤ c.sizeBound := by
  unfold sizeBound
  induction hsteps : c.stop - c.next generalizing c with
  | zero => exact ⟨[], by rw [toList, dif_neg (by omega)], Nat.le_refl 0⟩
  | succ steps ih =>
    obtain ⟨valid, hvalid⟩ := PackedTables.exists_hasLookahead hs (UInt16.ofNat c.next)
    obtain ⟨rest, hrest, hlength⟩ :=
      ih (c := { c with next := c.next + 1 }) hs (by simp only; omega)
    rw [toList, dif_pos (by omega)]
    simp only [hvalid, hrest, ok_bind, pure_ok]
    refine ⟨_, rfl, ?_⟩
    split
    · simpa using hlength
    · omega

theorem exists_delivers (hs : c.state.toNat < c.tables.stateCount) :
    ∃ xs, c.Delivers xs ∧ xs.length ≤ c.sizeBound := by
  obtain ⟨xs, hxs, hlength⟩ := exists_toList hs
  exact ⟨xs, delivers_of_toList hxs, hlength⟩

/-- A call moves the place forward, and not past the terminals. -/
theorem next?_spec (h : c.next? = .ok (some (x, c'))) :
    ∃ n, c.next < n ∧ n ≤ c.stop ∧ c' = { c with next := n } := by
  induction hsteps : c.stop - c.next generalizing c with
  | zero =>
    rw [next?_of_le (by omega)] at h
    cases h
  | succ steps ih =>
    have hlt : c.next < c.stop := by omega
    have hcall := h
    rw [next?, dif_pos hlt] at hcall
    obtain ⟨valid, hvalid, -⟩ := bind_eq_ok.mp hcall
    rw [next?_of_lt hlt hvalid] at h
    cases valid with
    | true =>
      cases h
      exact ⟨c.next + 1, by omega, hlt, rfl⟩
    | false =>
      obtain ⟨n, hn, hstop, rfl⟩ := ih h (by simp only; omega)
      exact ⟨n, by simp only at hn; omega, hstop, rfl⟩

/-- All the places of an iteration are in one row of the table, at one of its terminals or right
past the last one. -/
theorem Reaches.within (h : c.Reaches c') (hc : c.next ≤ c.stop) :
    c'.next ≤ c'.stop ∧ c'.tables = c.tables ∧ c'.state = c.state := by
  induction h with
  | here => exact ⟨hc, rfl, rfl⟩
  | next _ _ _ _ hnext ih =>
    obtain ⟨-, htables, hstate⟩ := ih
    obtain ⟨n, -, hstop, rfl⟩ := next?_spec hnext
    exact ⟨hstop, htables, hstate⟩
  | finished _ _ _ ih => exact ⟨Nat.le_refl _, ih.2⟩

end Lookaheads

/-! ## The valid terminals -/

section Ids

variable {x : SymbolId} {xs : List SymbolId} {n : Nat}

/-- Numbers that ids can have become ids in the same order. -/
theorem pairwise_ofNat_range (hn : n ≤ UInt16.size) :
    ((List.range n).map UInt16.ofNat).Pairwise (· < ·) := by
  rw [List.pairwise_map]
  apply List.pairwise_lt_range.imp_of_mem
  intro a b ha hb hlt
  rw [List.mem_range] at ha hb
  rw [UInt16.lt_iff_toNat_lt, UInt16.toNat_ofNat_of_lt' (by omega),
    UInt16.toNat_ofNat_of_lt' (by omega)]
  exact hlt

theorem mem_ofNat_range_iff (hn : n ≤ UInt16.size) :
    x ∈ (List.range n).map UInt16.ofNat ↔ x.toNat < n := by
  rw [List.mem_map]
  constructor
  · rintro ⟨a, ha, rfl⟩
    rw [List.mem_range] at ha
    rwa [UInt16.toNat_ofNat_of_lt' (by omega)]
  · intro hx
    exact ⟨x.toNat, List.mem_range.mpr hx, UInt16.ofNat_toNat⟩

/-- In an ascending list, the first symbol that passes a check is the least one that does. -/
theorem find?_eq_some_iff_of_ascending (hxs : xs.Pairwise (· < ·)) (passes : SymbolId → Bool) :
    xs.find? passes = some x ↔
      x ∈ xs ∧ passes x = true ∧ ∀ y ∈ xs, passes y = true → x ≤ y := by
  -- By induction on the list, the first item of which is below all others.
  induction hxs with
  | nil => simp
  | @cons a rest hleast _ ih =>
    rw [List.find?_cons]
    cases ha : passes a with
    | true =>
      constructor
      · intro h
        cases h
        refine ⟨List.mem_cons_self, ha, ?_⟩
        intro y hy _
        rcases List.mem_cons.mp hy with rfl | hy
        · exact UInt16.le_refl _
        · exact UInt16.le_of_lt (hleast y hy)
      · rintro ⟨hx, -, hle⟩
        rcases List.mem_cons.mp hx with rfl | hx
        · rfl
        · exact absurd (hle a List.mem_cons_self ha) (UInt16.not_le.mpr (hleast x hx))
    | false =>
      rw [ih]
      constructor
      · rintro ⟨hx, hpasses, hle⟩
        refine ⟨List.mem_cons_of_mem _ hx, hpasses, ?_⟩
        intro y hy hy'
        rcases List.mem_cons.mp hy with rfl | hy
        · rw [ha] at hy'
          cases hy'
        · exact hle y hy hy'
      · rintro ⟨hx, hpasses, hle⟩
        rcases List.mem_cons.mp hx with rfl | hx
        · rw [ha] at hpasses
          cases hpasses
        · exact ⟨hx, hpasses, fun y hy => hle y (List.mem_cons_of_mem _ hy)⟩

end Ids

namespace PackedTables

variable {t : PackedTables} {s : StateId} {x : SymbolId} {xs : List SymbolId}

theorem terminalCount_le (t : PackedTables) : t.terminalCount ≤ UInt16.size :=
  Nat.le_of_lt t.parts.terminalCount.toNat_lt

/-- Compressed tables have no lookaheads. -/
theorem toList_lookaheads_of_compressed (h : t.compressed = true) :
    (t.lookaheads s).toList = .ok [] := by
  rw [lookaheads, h, Lookaheads.toList, dif_neg (by simp)]

/-- The lookaheads of a state are ascending, and they are the terminals with an action. -/
theorem toList_lookaheads_spec (h : (t.lookaheads s).toList = .ok xs)
    (hplain : t.compressed = false) :
    xs.Pairwise (· < ·) ∧
      ∀ x, x ∈ xs ↔ x.toNat < t.terminalCount ∧ t.action s x ≠ .ok .error := by
  have hxs := Lookaheads.toList_spec h hplain
  simp only [lookaheads, hplain, Bool.false_eq_true, if_false, Nat.sub_zero,
    ← List.range_eq_range'] at hxs
  subst hxs
  refine ⟨(pairwise_ofNat_range t.terminalCount_le).filter _, ?_⟩
  intro x
  rw [List.mem_filter, mem_ofNat_range_iff t.terminalCount_le, decide_eq_true_eq]

/-- A state of the table has an action for each symbol, so an action is not the error action if
and only if there is another one. -/
theorem action_ne_error_iff (hs : s.toNat < t.stateCount) :
    t.action s x ≠ .ok .error ↔ ∃ action, t.action s x = .ok action ∧ action ≠ .error := by
  obtain ⟨⟨offset, hoffset⟩, -⟩ := exists_offsets hs
  have hexists : ∃ action, t.action s x = .ok action := by
    cases hentry : t.entry? offset x with
    | some code => exact ⟨_, action_of_entry hoffset hentry⟩
    | none =>
      obtain ⟨code, haction, -⟩ := exists_action_of_none hoffset hs hentry
      exact ⟨_, haction⟩
  obtain ⟨action, haction⟩ := hexists
  simp [haction]

/-- In every state an iteration over the lookaheads ends, with ascending terminals. Without
defaults these are the terminals whose action is not the error action; with defaults there are
none. The first terminal is the least of them, the end of input aside. At every place of the
iteration the bound for what is still to come is a difference that does not wrap, and it holds. -/
theorem lookaheads_are_the_valid_terminals (hs : s.toNat < t.stateCount) :
    ∃ xs first, (t.lookaheads s).Delivers xs ∧ (t.lookaheads s).toList = .ok xs ∧
      t.firstTerminal s = .ok first ∧ xs.Pairwise (· < ·) ∧
      (t.compressed = true → xs = [] ∧ first = none) ∧
      (t.compressed = false → ∀ x, x ∈ xs ↔ x.toNat < t.terminalCount ∧
        ∃ action, t.action s x = .ok action ∧ action ≠ .error) ∧
      (∀ x, first = some x ↔ x ∈ xs ∧ x ≠ eof ∧ ∀ y ∈ xs, y ≠ eof → x ≤ y) ∧
      (first = none ↔ ∀ x ∈ xs, x = eof) ∧
      ∀ c, (t.lookaheads s).Reaches c →
        c.next ≤ c.stop ∧ ∃ ys, c.Delivers ys ∧ ys.length ≤ c.sizeBound := by
  obtain ⟨xs, hxs, -⟩ := Lookaheads.exists_toList (c := t.lookaheads s) hs
  have hfirst : t.firstTerminal s = .ok (xs.find? (· != eof)) := by
    rw [firstTerminal, hxs]
    rfl
  have hnone : t.compressed = true → xs = [] := by
    intro hcompressed
    rw [toList_lookaheads_of_compressed hcompressed] at hxs
    cases hxs
    rfl
  -- A compressed table lists nothing, and a plain one lists in ascending order.
  have hascending : xs.Pairwise (· < ·) := by
    cases hcompressed : t.compressed with
    | true =>
      rw [hnone hcompressed]
      exact .nil
    | false => exact (toList_lookaheads_spec hxs hcompressed).1
  refine ⟨xs, _, Lookaheads.delivers_of_toList hxs, hxs, hfirst, hascending, ?_, ?_, ?_, ?_, ?_⟩
  · intro hcompressed
    rw [hnone hcompressed]
    exact ⟨rfl, rfl⟩
  · intro hplain x
    rw [(toList_lookaheads_spec hxs hplain).2 x, action_ne_error_iff hs]
  · intro x
    rw [find?_eq_some_iff_of_ascending hascending]
    simp only [bne_iff_ne]
  · simp [List.find?_eq_none]
  · intro c hc
    have hstart : (t.lookaheads s).next ≤ (t.lookaheads s).stop := Nat.zero_le _
    obtain ⟨hle, htables, hstate⟩ := hc.within hstart
    refine ⟨hle, Lookaheads.exists_delivers ?_⟩
    rw [htables, hstate]
    exact hs

/-- Two states whose rows overlap. The first row stores the code of the error action for the end
of input, and its hole belongs to the second one. -/
def sharedRows : PackedTables where
  parts :=
    { codes := #[0, 1, -1, -1]
      owners := #[0, 1, 0, 3]
      actionOffsets := #[0, 2]
      gotoOffsets := #[Tables.unusedOffset, Tables.unusedOffset]
      defaults := #[]
      rules := #[]
      terminalCount := 4
      symbolCount := 4
      errorSymbol := none
      compressed := false }
  sound := by decide +kernel

/-- Neither the stored error action nor the slot of the other row is a lookahead. -/
theorem lookaheads_of_shared_rows : startState.toNat < sharedRows.stateCount ∧
    (sharedRows.lookaheads startState).Delivers [1, 3] ∧
    sharedRows.firstTerminal startState = .ok (some 1) := by
  have hstate : startState.toNat < sharedRows.stateCount := by decide
  obtain ⟨xs, _, hdelivers, hxs, -⟩ := lookaheads_are_the_valid_terminals hstate
  have hlist : (sharedRows.lookaheads startState).toList.toOption = some [1, 3] := by
    decide +kernel
  rw [hxs] at hlist
  cases hlist
  refine ⟨hstate, hdelivers, ?_⟩
  rw [firstTerminal, hxs]
  rfl

end PackedTables

end ShiftReduce
