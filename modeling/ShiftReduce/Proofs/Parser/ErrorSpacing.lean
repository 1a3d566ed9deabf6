import ShiftReduce.Proofs.Parser.Acts
import ShiftReduce.Proofs.Parser.Conservation
import ShiftReduce.Proofs.Parser.Moments
import ShiftReduce.Proofs.Parser.Safety
import ShiftReduce.Proofs.Recovery.Counters
import ShiftReduce.Proofs.Stream.Supply

/-!
# The distance between syntax errors

A repair is confirmed by a window of tokens, so the next syntax error comes a window of
shifts later. At most one of these tokens has been inserted by the repair itself, and all
the others come from the scanner. So the tokens that there are bound the number of syntax
errors, whatever the parser is told about their number.

`Paid` is the invariant between two steps: how the syntax errors so far, the tokens shifted
since the last of them and the tokens to come add up.

* `paid_of_step`: a step keeps the invariant.
* `errors_are_spaced`: the bound at every moment of a parse.
-/

namespace ShiftReduce.Parser

open Automaton ShiftReduce.Configuration Relation

variable {σ V : Type} {p : Parser σ V} {fuel n m : Nat} {c c' : Configuration σ V}
  {token token' : Symbol V} {q q' : Progress σ V} {scanner : Scanner V} {goal : Option SymbolId}
  {s s' : Stream' (Symbol V)} {notice : Notice V}

/-! ## Repairs and the tokens to come -/

/-- A repair makes the tokens to come one more, at most. -/
theorem supplies_of_amends (h : Amends notice s s') (hs : Supplies s m) : Supplies s' (m + 1) := by
  cases h with
  | inserted => exact hs.cons _
  | replaced _ => exact hs.tail.cons _
  | removed => exact hs.tail.mono (Nat.le_succ m)
  | phraseRemoved _ => exact (hs.drop _).mono (Nat.le_succ m)

/-- At a syntax error the parse is not free of errors any more. -/
theorem Clear.le_of_error {target : Nat} {entry : Entry V} (h : p.Clear target (.running token c))
    (htop : c.stack.top = .ok entry) (hact : p.tables.action entry.state token.id = .ok .error) :
    target ≤ c.stats.tokensShifted := by
  obtain ⟨n, htarget, hfeasible⟩ := h
  obtain ⟨below, hcolumn⟩ := ParseStack.column_of_top htop
  rw [hcolumn] at hfeasible
  have hzero : n = 0 := feasible_pred hfeasible (.error hact)
  omega

/-! ## What the syntax errors have cost -/

/-- How many tokens there are left between two steps, when the parse has begun with `n`. Each
syntax error but the last one has cost a window of tokens, less the one that its repair may
have inserted, and the last one is about to. -/
def Paid (p : Parser σ V) (n : Nat) : Progress σ V → Prop
  | .running token c => ∃ m, Supplies (Stream'.cons token c.stream.pending) m ∧
      match c.stats.syntaxErrors with
      | 0 => m ≤ n
      | e + 1 => e * (p.window - 1) ≤ n ∧ ∃ repaired,
          p.Clear (repaired + p.window) (.running token c) ∧
          m + c.stats.tokensShifted + e * (p.window - 1) ≤ n + 1 + repaired
  | .finished _ c => (c.stats.syntaxErrors - 1) * (p.window - 1) ≤ n

theorem Paid.bound (h : p.Paid n q) :
    (q.configuration.stats.syntaxErrors - 1) * (p.window - 1) ≤ n := by
  cases q with
  | finished result c => exact h
  | running token c =>
    obtain ⟨m, -, hm⟩ := h
    rw [Progress.configuration_running]
    cases herrors : c.stats.syntaxErrors with
    | zero => simp
    | succ e =>
      rw [herrors] at hm
      exact hm.1

/-- A parse that comes to its end without another syntax error has paid for them. -/
theorem Paid.finish {result : Except ParseError (Option V)} (h : p.Paid n (.running token c))
    (herrors : c'.stats.syntaxErrors = c.stats.syntaxErrors) :
    p.Paid n (.finished result c') := by
  show (c'.stats.syntaxErrors - 1) * (p.window - 1) ≤ n
  rw [herrors]
  exact h.bound

/-- At a syntax error all of those before have cost their tokens. -/
theorem Paid.at_error {entry : Entry V} (h : p.Paid n (.running token c))
    (htop : c.stack.top = .ok entry) (hact : p.tables.action entry.state token.id = .ok .error) :
    ∃ m, Supplies (Stream'.cons token c.stream.pending) m ∧
      m + c.stats.syntaxErrors * (p.window - 1) ≤ n := by
  obtain ⟨m, hsupplies, hm⟩ := h
  refine ⟨m, hsupplies, ?_⟩
  cases herrors : c.stats.syntaxErrors with
  | zero =>
    rw [herrors] at hm
    simpa using hm
  | succ e =>
    rw [herrors] at hm
    obtain ⟨-, repaired, hclear, hm⟩ := hm
    have hshifted := hclear.le_of_error htop hact
    have hwindow := p.one_le_window
    rw [Nat.add_one_mul]
    omega

/-- A repair costs nothing yet, and makes the tokens to come one more. -/
theorem paid_of_repair {entry : Entry V} (htop : c.stack.top = .ok entry)
    (hact : p.tables.action entry.state token.id = .ok .error) (h : p.Paid n (.running token c))
    (hwindow : c.stream.window = p.window) (hrepair : p.repair fuel token c = .ok q) :
    p.Paid n q := by
  obtain ⟨m, hsupplies, hm⟩ := h.at_error htop hact
  obtain ⟨herrors, hshifted⟩ := repair_counts hrepair
  cases q with
  | finished result c' =>
    show (c'.stats.syntaxErrors - 1) * (p.window - 1) ≤ n
    rw [show c'.stats.syntaxErrors = _ from herrors, Nat.add_sub_cancel]
    omega
  | running token' c' =>
    obtain ⟨c₁, hrecover, hread⟩ := repair_running hrepair
    have hreads := readToken_spec hread
    have htop' : (c.reported token).stack.top = .ok entry := htop
    obtain ⟨i, P, rfl, rfl, hstack, hrest, ho, hc⟩ := exists_commits htop' hact hrecover
    have hpending : P.input = Stream'.cons token' c'.stream.pending := by
      rw [← hc.pending]
      exact hreads.pending_eq token' c' rfl
    -- The repair adds one token at most, and the window it is confirmed for pays for it.
    have hinput : Supplies i.input m := by
      rw [Impasse.input, ← hrest]
      exact hsupplies
    have hfeasible := ho.feasible
    rw [show (c.reported i.token).stream.window = p.window from hwindow,
      Nat.max_eq_left p.one_le_window, Proposal.Feasible, ← hc.stack, hpending,
      Stream'.map_cons] at hfeasible
    refine ⟨m + 1, hpending ▸ supplies_of_amends (ho.amends hact) hinput, ?_⟩
    rw [show c'.stats.syntaxErrors = _ from herrors]
    have hshifted' : c'.stats.tokensShifted = c.stats.tokensShifted := hshifted
    refine ⟨by omega, c.stats.tokensShifted, ⟨p.window, by omega, ?_⟩, by omega⟩
    rw [show c'.stack = c₁.stack from hreads.stack_eq]
    exact hfeasible

/-- Any step other than a repair leaves the syntax errors as they are. -/
theorem Paid.of_goes (h : p.Paid n (.running token c)) (hgoes : p.Goes token c token' c')
    (herrors : c'.stats.syntaxErrors = c.stats.syntaxErrors)
    (hsupplies : ∀ m, Supplies (Stream'.cons token c.stream.pending) m → ∃ m',
      Supplies (Stream'.cons token' c'.stream.pending) m' ∧
        m' + c'.stats.tokensShifted ≤ m + c.stats.tokensShifted) :
    p.Paid n (.running token' c') := by
  obtain ⟨m, hm, hpaid⟩ := h
  obtain ⟨m', hm', hle⟩ := hsupplies m hm
  have hshifted := hgoes.tokensShifted_le
  refine ⟨m', hm', ?_⟩
  rw [herrors]
  cases hcount : c.stats.syntaxErrors with
  | zero =>
    rw [hcount] at hpaid
    dsimp only at hpaid ⊢
    omega
  | succ e =>
    rw [hcount] at hpaid
    obtain ⟨hbound, repaired, hclear, hle'⟩ := hpaid
    exact ⟨hbound, repaired, hgoes.clear hclear, by omega⟩

/-- A step keeps the account, if the end of input is not shifted. -/
theorem paid_of_step (heof : ∀ s target, p.tables.action s eof ≠ .ok (.shift target))
    (h : p.Paid n (.running token c)) (hpassing : Passing p.window (.running token c))
    (hstep : p.step fuel token c = .ok q) : p.Paid n q := by
  obtain ⟨entry, action, htop, hact, hdone⟩ := exists_act hstep
  cases action with
  | error => exact paid_of_repair htop hact h hpassing.2 hdone
  | accept =>
    cases hdone
    exact h.finish (congrArg Stats.syntaxErrors (trace_stats _ _ _))
  | shift target =>
    have hreads := readToken_spec (liftM_eq_ok.mp hdone)
    have herrors : q.configuration.stats.syntaxErrors = c.stats.syntaxErrors := by
      rw [hreads.stats_eq, syntaxErrors_shifted]
    cases q with
    | finished result c' => exact h.finish herrors
    | running token' c' =>
      refine h.of_goes (step_goes hstep hpassing.1).1 herrors ?_
      -- The token that is shifted is not the end of input, so there is one less to come.
      intro m hm
      have hne : token.id ≠ eof := fun hid => heof entry.state target (hid ▸ hact)
      obtain ⟨k, rfl, hk⟩ := hm.tail_of_ne hne
      have hpending := hreads.pending_eq token' c' rfl
      rw [shifted_stream] at hpending
      refine ⟨k, hpending ▸ hk, ?_⟩
      rw [show c'.stats = _ from hreads.stats_eq, tokensShifted_shifted]
      omega
  | reduce rule =>
    obtain ⟨info, _, _, _, _, memory, -, -, -, -, -, -, base, hfollow⟩ :=
      reduce_eq_ok (liftM_eq_ok.mp hdone)
    rcases follow_eq_ok hfollow with ⟨target, rfl⟩ | rfl
    · refine h.of_goes (step_goes hstep hpassing.1).1 (syntaxErrors_reduced _ _ _ _ _) ?_
      intro m hm
      refine ⟨m, ?_, ?_⟩
      · rw [push_stream, reduced_stream]
        exact hm
      · rw [push_tokensShifted, tokensShifted_reduced]
    · refine h.finish ?_
      rw [trace_stats, syntaxErrors_reduced]

/-! ## Runs -/

/-- The number of tokens that a parse has from its scanner, with the marker of its goal. The
end of input is not counted, wherever it stands. -/
def tokenCount (scanner : Scanner V) (goal : Option SymbolId) : Nat :=
  ((goal.map goalMarker).toList ++ scanner.items.filterMap Except.toOption).countP
    fun token : Symbol V => !token.isEof

theorem supplies_inputOf (scanner : Scanner V) (goal : Option SymbolId) :
    Supplies (inputOf scanner goal) (tokenCount scanner goal) := by
  rw [inputOf, Scanner.yields_eq, tokenCount, List.countP_append]
  exact supplies_append (supplies_withEnd _ _) _

theorem Starts.paid (h : p.Starts scanner goal q) : p.Paid (tokenCount scanner goal) q := by
  obtain ⟨stream, memory, hread⟩ := h.exists_read
  have herrors : q.configuration.stats.syntaxErrors = 0 := by
    rw [(readToken_spec hread).stats_eq]
    rfl
  cases q with
  | finished result c =>
    show (c.stats.syntaxErrors - 1) * (p.window - 1) ≤ _
    rw [show c.stats.syntaxErrors = 0 from herrors]
    simp
  | running token c =>
    refine ⟨tokenCount scanner goal, h.running.1 ▸ supplies_inputOf scanner goal, ?_⟩
    rw [show c.stats.syntaxErrors = 0 from herrors]

theorem paid_of_reaches (heof : ∀ s target, p.tables.action s eof ≠ .ok (.shift target))
    {start : Progress σ V} (hstart : p.Starts scanner goal start)
    (hreach : ReflTransGen p.Step start q) : p.Paid (tokenCount scanner goal) q := by
  induction hreach with
  | refl => exact hstart.paid
  | tail hreach hstep ih =>
    have hpassing := Reachable.passing ⟨scanner, goal, start, hstart, hreach⟩
    cases hstep with
    | intro hstep => exact paid_of_step heof ih hpassing hstep

/-- Within a step no more syntax errors are counted than the tokens so far have paid for. -/
theorem Stepping.bound (heof : ∀ s target, p.tables.action s eof ≠ .ok (.shift target))
    (h : p.Paid n (.running token c)) (hpassing : Passing p.window (.running token c))
    (hstepping : p.Stepping fuel token c c') :
    (c'.stats.syntaxErrors - 1) * (p.window - 1) ≤ n := by
  have hreported : ∀ {entry : Entry V}, c.stack.top = .ok entry →
      p.tables.action entry.state token.id = .ok .error →
      ((c.reported token).stats.syntaxErrors - 1) * (p.window - 1) ≤ n := by
    intro entry htop hact
    obtain ⟨m, -, hm⟩ := h.at_error htop hact
    show c.stats.syntaxErrors * (p.window - 1) ≤ n
    omega
  -- The error is counted when it is reported, and no count changes in recovery.
  cases hstepping with
  | shifted _ _ =>
    rw [syntaxErrors_shifted]
    exact h.bound
  | reduced _ _ _ _ _ _ =>
    rw [syntaxErrors_reduced]
    exact h.bound
  | reported htop hact => exact hreported htop hact
  | recovering htop hact _ _ hrecovering =>
    rw [hrecovering.counts.syntaxErrors_eq]
    exact hreported htop hact
  | @recovered _ c₁ htop hact _ _ hrecover =>
    have hcounts : SameCounts (c.reported token) c₁ := Recovery.recover_counts hrecover
    show (c₁.stats.syntaxErrors - 1) * (p.window - 1) ≤ n
    rw [hcounts.syntaxErrors_eq]
    exact hreported htop hact
  | done hstep => exact (paid_of_step heof h hpassing hstep).bound

/-- If no state shifts the end of input, then at every moment of a parse each syntax error but
the last one has cost a window of tokens, less one. So with a window of at least two tokens
there are no more syntax errors than tokens, and one. -/
theorem errors_are_spaced (heof : ∀ s target, p.tables.action s eof ≠ .ok (.shift target))
    (h : p.MomentOf scanner goal c) :
    (1 ≤ c.stats.syntaxErrors →
      (c.stats.syntaxErrors - 1) * (max 1 p.settings.window - 1) ≤ tokenCount scanner goal) ∧
    (2 ≤ p.settings.window → c.stats.syntaxErrors ≤ tokenCount scanner goal + 1) := by
  have hbound : (c.stats.syntaxErrors - 1) * (p.window - 1) ≤ tokenCount scanner goal := by
    cases h with
    | opened _ => simp [Configuration.initial, Stats.zero]
    | marked _ _ _ => simp [Configuration.initial, Stats.zero]
    | between hstart hreach => exact (paid_of_reaches heof hstart hreach).bound
    | amid hstart hreach hstepping =>
      exact hstepping.bound heof (paid_of_reaches heof hstart hreach)
        (Reachable.passing ⟨_, _, _, hstart, hreach⟩)
  constructor
  · intro _
    rw [Nat.max_comm]
    exact hbound
  · intro hwindow
    have hle : (c.stats.syntaxErrors - 1) * 1 ≤ (c.stats.syntaxErrors - 1) * (p.window - 1) := by
      apply Nat.mul_le_mul_left
      have : p.settings.window ≤ p.window := Nat.le_max_left _ _
      omega
    omega

/-- The table of a single letter has two states. -/
theorem oneLetter_states {s : StateId} (h : s.toNat < 2) : s = 0 ∨ s = 1 := by
  simp only [← UInt16.toNat_inj, UInt16.toNat_ofNat]
  omega

/-- The table of a single letter does nothing at the end of the input, or it reduces. -/
theorem oneLetter_shifts_no_eof (s target : StateId) :
    oneLetter.tables.action s eof ≠ .ok (.shift target) := by
  intro h
  rcases oneLetter_states (PackedTables.lt_of_action h) with rfl | rfl
  · rw [show oneLetter.tables.action 0 eof = .ok .error from rfl] at h
    cases h
  · rw [show oneLetter.tables.action 1 eof = .ok (.reduce 0) from rfl] at h
    cases h

/-- Tables for letters in a row. Symbol `2` is a terminal that is never valid. -/
def lettersTables : PackedTables where
  parts :=
    { codes := #[-1, 1, 1]
      owners := #[0, 1, 1]
      actionOffsets := #[1, 0]
      gotoOffsets := #[Tables.unusedOffset, Tables.unusedOffset]
      defaults := #[]
      rules := #[]
      terminalCount := 3
      symbolCount := 3
      errorSymbol := none
      compressed := false }
  sound := by decide +kernel

/-- A parser for letters in a row, which looks three tokens ahead. -/
def lettersParser : Parser Unit Unit := ⟨lettersTables, .nothing, .standard, 12⟩

theorem letters_shift_no_eof (s target : StateId) :
    lettersParser.tables.action s eof ≠ .ok (.shift target) := by
  intro h
  rcases oneLetter_states (PackedTables.lt_of_action h) with rfl | rfl
  · rw [show lettersParser.tables.action 0 eof = .ok .error from rfl] at h
    cases h
  · rw [show lettersParser.tables.action 1 eof = .ok .accept from rfl] at h
    cases h

/-- A terminal that is never valid, in front of two letters and behind them. -/
def strangers : Scanner Unit :=
  .ofItems [.ok (.empty 2 .zero .zero), .ok letter, .ok letter, .ok (.empty 2 .zero .zero)]

/-- Both strangers are syntax errors, and both are repaired. The second one may come no sooner:
each repair but the last has cost a window of three tokens, less one. -/
theorem errors_are_spaced_letters : ∃ c,
    lettersParser.MomentOf strangers none c ∧ c.stats.syntaxErrors = 2 ∧
      c.stats.errorsRecovered = 2 ∧ tokenCount strangers none = 4 ∧
      (2 - 1) * (max 1 lettersParser.settings.window - 1) ≤ 4 ∧
      max 1 lettersParser.settings.window - 1 = 2 ∧ c.stats.syntaxErrors ≤ 5 := by
  have hruns : (lettersParser.parse 20 strangers ()).toOption.any
      (fun o => o.stats.syntaxErrors == 2 && o.stats.errorsRecovered == 2) = true := by
    decide +kernel
  obtain ⟨o, ho, hcounts⟩ := exists_ok_of_any hruns
  obtain ⟨start, c, hstart, hreach, hstats, -⟩ := (Answers.parse ho).reaches
  rw [hstats, Bool.and_eq_true, beq_iff_eq, beq_iff_eq] at hcounts
  have hmoment : lettersParser.MomentOf strangers none c := .between hstart hreach
  obtain ⟨hspaced, hfew⟩ := errors_are_spaced letters_shift_no_eof hmoment
  have hcount : tokenCount strangers none = 4 := rfl
  rw [hcount] at hspaced hfew
  rw [hcounts.1] at hspaced
  exact ⟨c, hmoment, hcounts.1, hcounts.2, hcount, hspaced (by decide), by decide,
    hfew (by decide)⟩

end ShiftReduce.Parser
