import ShiftReduce.Tables.Row

/-!
# Sorted cells and their rows

Cells that are strictly sorted hold at most one action for a symbol in a state, so
looking one up is the same as being among them (`Cell.find?_eq_some_iff`). The rows
of states are then strictly sorted by symbol.

* `Cell.find?_insert` and `Cell.Sorted.insert`: recording an entry.
* `Row.lookup_ofCells` and `Row.lookup_compress_getD`: the entries of rows.
* `Row.mostFrequent_spec`: the rule that a row is compressed by.
-/

namespace ShiftReduce.Tables

namespace Cell

variable {a b c d : Cell} {cells : List Cell} {s : StateId} {x : SymbolId} {action : Action}

theorem before_iff : a.before b = true ↔
    a.state < b.state ∨ (a.state = b.state ∧ a.symbol < b.symbol) := by
  simp [before]

theorem samePlace_iff : a.samePlace b = true ↔ a.state = b.state ∧ a.symbol = b.symbol := by
  simp [samePlace]

theorem before_trans (h : a.before b = true) (h' : b.before c = true) : a.before c = true := by
  rw [before_iff] at *
  simp only [UInt16.lt_iff_toNat_lt, ← UInt16.toNat_inj] at *
  omega

/-- Two cells for different places stand in one order or the other. -/
theorem before_of_not_before (h : ¬a.before b = true) (hplace : ¬a.samePlace b = true) :
    b.before a = true := by
  rw [before_iff] at *
  rw [samePlace_iff] at hplace
  simp only [UInt16.lt_iff_toNat_lt, ← UInt16.toNat_inj] at *
  omega

theorem not_samePlace_of_before (h : a.before b = true) :
    ¬(a.state = b.state ∧ a.symbol = b.symbol) := by
  rw [before_iff] at h
  simp only [UInt16.lt_iff_toNat_lt, ← UInt16.toNat_inj] at *
  omega

/-- Whether cells are strictly sorted. -/
def Sorted (cells : List Cell) : Prop := cells.Pairwise fun a b => a.before b = true

/-! ## Looking up -/

theorem find?_cons (d : Cell) (cells : List Cell) (s : StateId) (x : SymbolId) :
    find? (d :: cells) s x =
      if d.state = s ∧ d.symbol = x then some d.action else find? cells s x := by
  unfold find?
  rw [List.find?_cons]
  by_cases h : d.state = s ∧ d.symbol = x
  · simp [h]
  · rw [if_neg h]
    have hfalse : (d.state == s && d.symbol == x) = false := by
      simpa [Bool.and_eq_true] using h
    rw [hfalse]

/-- In sorted cells, an action is found where it is recorded. -/
theorem find?_eq_some_iff (h : Sorted cells) :
    find? cells s x = some action ↔ ⟨s, x, action⟩ ∈ cells := by
  induction cells with
  | nil => simp [find?]
  | cons d cells ih =>
    obtain ⟨hd, hcells⟩ := List.pairwise_cons.mp h
    rw [find?_cons, List.mem_cons]
    by_cases hplace : d.state = s ∧ d.symbol = x
    · rw [if_pos hplace, Option.some_inj]
      obtain ⟨rfl, rfl⟩ := hplace
      constructor
      · rintro rfl
        exact .inl rfl
      · rintro (heq | hmem)
        · rw [← heq]
        · exact absurd ⟨rfl, rfl⟩ (not_samePlace_of_before (hd _ hmem))
    · rw [if_neg hplace, ih hcells]
      constructor
      · exact .inr
      · rintro (rfl | hmem)
        · exact absurd ⟨rfl, rfl⟩ hplace
        · exact hmem

/-! ## Recording -/

theorem mem_insert (hfresh : find? cells c.state c.symbol = none) :
    d ∈ insert c cells ↔ d = c ∨ d ∈ cells := by
  induction cells with
  | nil => simp [insert]
  | cons e cells ih =>
    rw [find?_cons] at hfresh
    split at hfresh
    · cases hfresh
    · rename_i hplace
      rw [insert]
      split
      · simp
      · split
        · rename_i hsame
          rw [samePlace_iff] at hsame
          exact absurd ⟨hsame.1.symm, hsame.2.symm⟩ hplace
        · rw [List.mem_cons, ih hfresh, List.mem_cons]
          exact or_left_comm

theorem find?_insert (hfresh : find? cells c.state c.symbol = none) :
    find? (insert c cells) s x =
      if c.state = s ∧ c.symbol = x then some c.action else find? cells s x := by
  induction cells with
  | nil => exact find?_cons c [] s x
  | cons e cells ih =>
    rw [find?_cons] at hfresh
    split at hfresh
    · cases hfresh
    · rename_i hplace
      rw [insert]
      split
      · exact find?_cons c _ s x
      · split
        · rename_i hsame
          rw [samePlace_iff] at hsame
          exact absurd ⟨hsame.1.symm, hsame.2.symm⟩ hplace
        · rw [find?_cons, ih hfresh, find?_cons]
          by_cases he : e.state = s ∧ e.symbol = x
          · obtain ⟨rfl, rfl⟩ := he
            rw [if_pos ⟨rfl, rfl⟩, if_neg fun hc => hplace ⟨hc.1.symm, hc.2.symm⟩,
              if_pos ⟨rfl, rfl⟩]
          · rw [if_neg he, if_neg he]

theorem Sorted.insert (h : Sorted cells) (hfresh : find? cells c.state c.symbol = none) :
    Sorted (insert c cells) := by
  induction cells with
  | nil => exact List.pairwise_singleton _ _
  | cons e cells ih =>
    obtain ⟨he, hcells⟩ := List.pairwise_cons.mp h
    rw [find?_cons] at hfresh
    split at hfresh
    · cases hfresh
    · rw [Cell.insert]
      split
      · rename_i hbefore
        refine List.pairwise_cons.mpr ⟨?_, h⟩
        intro d hd
        rcases List.mem_cons.mp hd with rfl | hd
        · exact hbefore
        · exact before_trans hbefore (he d hd)
      · rename_i hbefore
        split
        · exact h
        · rename_i hplace
          refine List.pairwise_cons.mpr ⟨?_, ih hcells hfresh⟩
          intro d hd
          rcases (mem_insert hfresh).mp hd with rfl | hd
          · exact before_of_not_before hbefore hplace
          · exact he d hd

end Cell

namespace Row

variable {cells : List Cell} {s : StateId} {x : SymbolId} {action : Action} {row : Row}
  {rule : RuleId}

/-- Whether a row is strictly sorted by symbol. -/
def Ascending (row : Row) : Prop := row.Pairwise fun a b => a.1 < b.1

theorem mem_ofCells : (x, action) ∈ ofCells cells s ↔ ⟨s, x, action⟩ ∈ cells := by
  simp only [ofCells, List.mem_filterMap]
  constructor
  · rintro ⟨⟨state, symbol, found⟩, hmem, h⟩
    split at h
    · rename_i hstate
      rw [beq_iff_eq] at hstate
      cases h
      cases hstate
      exact hmem
    · cases h
  · intro hmem
    exact ⟨_, hmem, by simp⟩

theorem ascending_ofCells (h : Cell.Sorted cells) (s : StateId) : Ascending (ofCells cells s) := by
  refine List.Pairwise.filterMap _ ?_ h
  intro a b hbefore e he e' he'
  split at he
  · rename_i ha
    split at he'
    · rename_i hb
      rw [beq_iff_eq] at ha hb
      cases he
      cases he'
      rcases Cell.before_iff.mp hbefore with hlt | ⟨-, hlt⟩
      · rw [ha, hb] at hlt
        exact absurd hlt (UInt16.lt_irrefl _)
      · exact hlt
    · cases he'
  · cases he

/-- In an ascending row, an action is looked up where it is an entry. -/
theorem lookup_eq_some_iff (h : Ascending row) :
    row.lookup x = some action ↔ (x, action) ∈ row := by
  -- By induction on the row. The first entry for a symbol is the only one.
  induction row with
  | nil => simp
  | cons entry row ih =>
    obtain ⟨y, found⟩ := entry
    obtain ⟨hfirst, hrow⟩ := List.pairwise_cons.mp h
    rw [List.lookup_cons, List.mem_cons]
    by_cases hxy : x = y
    · subst hxy
      rw [beq_self_eq_true]
      show some found = some action ↔ _
      rw [Option.some_inj]
      constructor
      · rintro rfl
        exact .inl rfl
      · rintro (heq | hmem)
        · cases heq
          rfl
        · exact absurd (hfirst _ hmem) (UInt16.lt_irrefl x)
    · rw [beq_eq_false_iff_ne.mpr hxy]
      show List.lookup x row = some action ↔ _
      rw [ih hrow]
      constructor
      · exact .inr
      · rintro (heq | hmem)
        · cases heq
          exact absurd rfl hxy
        · exact hmem

theorem lookup_ofCells (h : Cell.Sorted cells) (s : StateId) (x : SymbolId) :
    (ofCells cells s).lookup x = Cell.find? cells s x := by
  apply Option.ext
  intro action
  rw [lookup_eq_some_iff (ascending_ofCells h s), mem_ofCells, Cell.find?_eq_some_iff h]

/-! ## Compression -/

theorem mem_compress : (x, action) ∈ row.compress ↔
    (x, action) ∈ row ∧ ∀ rule, row.defaultRule = some rule → action ≠ .reduce rule := by
  unfold compress
  split
  · rename_i rule hrule
    simp [hrule]
  · rename_i hnone
    simp [hnone]

theorem Ascending.compress (h : Ascending row) : Ascending row.compress := by
  unfold Row.compress
  split
  · exact List.Pairwise.filter _ h
  · exact h

/-- What compression takes out of a row is what its default gives back. -/
theorem lookup_compress_getD (h : Ascending row) (x : SymbolId) :
    (row.compress.lookup x).getD row.defaultAction = (row.lookup x).getD row.defaultAction := by
  cases hfound : row.lookup x with
  | none =>
    have hnone : row.compress.lookup x = none := by
      rw [Option.eq_none_iff_forall_ne_some]
      intro action haction
      rw [lookup_eq_some_iff h.compress, mem_compress, ← lookup_eq_some_iff h, hfound] at haction
      cases haction.1
    rw [hnone]
  | some action =>
    rw [Option.getD_some]
    -- An entry is folded into the default only if it is the default.
    by_cases hdefault : action = row.defaultAction
    · subst hdefault
      cases hkept : row.compress.lookup x with
      | none => rfl
      | some action =>
        rw [lookup_eq_some_iff h.compress, mem_compress, ← lookup_eq_some_iff h, hfound] at hkept
        cases hkept.1
        rfl
    · have hkept : row.compress.lookup x = some action := by
        rw [lookup_eq_some_iff h.compress, mem_compress, ← lookup_eq_some_iff h]
        refine ⟨hfound, fun rule hrule heq => hdefault ?_⟩
        rw [heq, defaultAction, hrule]
      rw [hkept, Option.getD_some]

/-- Whether one rule of a list is at least as good a default as another: more
frequent, or as frequent and no higher. -/
def AsGood (rules : List RuleId) (best r : RuleId) : Prop :=
  rules.count r < rules.count best ∨ rules.count r = rules.count best ∧ best ≤ r

theorem preferred_iff (rules : List RuleId) (r best : RuleId) :
    preferred rules r best = true ↔ ¬AsGood rules best r := by
  simp only [preferred, AsGood, Bool.or_eq_true, Bool.and_eq_true, decide_eq_true_eq, beq_iff_eq,
    UInt16.lt_iff_toNat_lt, UInt16.le_iff_toNat_le]
  omega

theorem AsGood.trans {rules : List RuleId} {a b c : RuleId} (h : AsGood rules a b)
    (h' : AsGood rules b c) : AsGood rules a c := by
  simp only [AsGood, UInt16.le_iff_toNat_le] at *
  omega

theorem AsGood.refl (rules : List RuleId) (a : RuleId) : AsGood rules a a :=
  .inr ⟨rfl, UInt16.le_refl a⟩

theorem AsGood.antisymm {rules : List RuleId} {a b : RuleId} (h : AsGood rules a b)
    (h' : AsGood rules b a) : a = b := by
  simp only [AsGood, UInt16.le_iff_toNat_le] at *
  exact UInt16.toNat_inj.mp (by omega)

theorem AsGood.of_not {rules : List RuleId} {a b : RuleId} (h : ¬AsGood rules a b) :
    AsGood rules b a := by
  simp only [AsGood, UInt16.le_iff_toNat_le] at *
  omega

/-- One step of the search. -/
def better (rules : List RuleId) (best : Option RuleId) (r : RuleId) : Option RuleId :=
  match best with
  | none => some r
  | some b => if preferred rules r b then some r else some b

/-- A search that has started from some rule ends with one that is as good as it and
as all that were looked at. -/
theorem foldl_better (rules : List RuleId) (best : RuleId) (rs : List RuleId) :
    ∃ r, rs.foldl (better rules) (some best) = some r ∧ (r = best ∨ r ∈ rs) ∧
      AsGood rules r best ∧ ∀ r' ∈ rs, AsGood rules r r' := by
  -- The counts are those in the whole list, while the induction is on what is left of it.
  induction rs generalizing best with
  | nil => exact ⟨best, rfl, .inl rfl, .refl _ _, by simp⟩
  | cons r rs ih =>
    by_cases hpreferred : preferred rules r best = true
    · obtain ⟨r', hfold, hmem, hgood, hall⟩ := ih r
      have hbest := AsGood.of_not ((preferred_iff rules r best).mp hpreferred)
      refine ⟨r', by rw [List.foldl_cons, better, if_pos hpreferred, hfold], ?_,
        hgood.trans hbest, ?_⟩
      · rcases hmem with rfl | hmem
        · exact .inr List.mem_cons_self
        · exact .inr (List.mem_cons_of_mem _ hmem)
      · intro r'' hr''
        rcases List.mem_cons.mp hr'' with rfl | hr''
        · exact hgood
        · exact hall r'' hr''
    · obtain ⟨r', hfold, hmem, hgood, hall⟩ := ih best
      have hr := Classical.not_not.mp (mt (preferred_iff rules r best).mpr hpreferred)
      refine ⟨r', by rw [List.foldl_cons, better, if_neg hpreferred, hfold], ?_, hgood, ?_⟩
      · rcases hmem with rfl | hmem
        · exact .inl rfl
        · exact .inr (List.mem_cons_of_mem _ hmem)
      · intro r'' hr''
        rcases List.mem_cons.mp hr'' with rfl | hr''
        · exact hgood.trans hr
        · exact hall r'' hr''

/-- The most frequent rule of a list is one of its rules, as good as any of them. -/
theorem mostFrequent_spec (rules : List RuleId) :
    match mostFrequent rules with
    | some rule => rule ∈ rules ∧ ∀ r ∈ rules, AsGood rules rule r
    | none => rules = [] := by
  have hfold : mostFrequent rules = rules.foldl (better rules) none := rfl
  rw [hfold]
  cases rules with
  | nil => rfl
  | cons r rs =>
    obtain ⟨best, hbest, hmem, hgood, hall⟩ := foldl_better (r :: rs) r rs
    rw [List.foldl_cons, better, hbest]
    refine ⟨?_, ?_⟩
    · rcases hmem with rfl | hmem
      · exact List.mem_cons_self
      · exact List.mem_cons_of_mem _ hmem
    · intro r' hr'
      rcases List.mem_cons.mp hr' with rfl | hr'
      · exact hgood
      · exact hall r' hr'

end Row

end ShiftReduce.Tables
