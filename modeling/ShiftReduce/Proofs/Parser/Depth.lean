import Mathlib.Order.Bounds.Defs
import ShiftReduce.Proofs.Parser.Budget
import ShiftReduce.Proofs.Parser.Spans
import ShiftReduce.Proofs.Recovery.Depth

/-!
# The greatest depth of a parse

The greatest depth is noted where an entry is pushed. The other acts leave the stack as deep as
it is or take entries off, so at each moment the depth has been noted, but for one thing: nobody
pushes the bottom entry. A parse that pushes nothing counts no depth, though its stack has had
one entry all the time.

* `Noted`: what has been noted at each moment.
* `step_raises` and `Stepping.maxDepth_le`: where a step finds a greater depth, and that it has
  found none in between.
* `greatest_depth_is_counted`: what a parse counts, and `bottom_entry_is_not_counted` where this
  is too little.
-/

namespace ShiftReduce

open ShiftReduce.Configuration Relation

variable {σ V : Type} {p : Parser σ V} {fuel fuel' : Nat} {c c' : Configuration σ V}
  {token : Symbol V} {q q' start : Progress σ V} {r : Repair σ V} {outcome : Outcome σ V}
  {scanner : Scanner V} {goal : Option SymbolId} {memory : σ}

/-! ## What has been noted -/

/-- The depth has been noted, unless the bottom entry is all that there is. -/
structure Noted (c : Configuration σ V) : Prop where
  pos : 1 ≤ c.stack.depth
  le : c.stack.depth ≤ max c.stats.maxDepth 1
  /-- The bottom entry is never noted. -/
  ne_one : c.stats.maxDepth ≠ 1

namespace Noted

theorem initial (stream : TokenStream V) (memory : σ) : Noted (.initial stream memory) :=
  ⟨Nat.le_refl 1, Nat.le_refl 1, Nat.zero_ne_one⟩

theorem of_eq (h : Noted c) (hdepth : c'.stack.depth = c.stack.depth)
    (hstats : c'.stats.maxDepth = c.stats.maxDepth) : Noted c' := by
  constructor
  · exact hdepth ▸ h.pos
  · exact hdepth ▸ hstats ▸ h.le
  · exact hstats ▸ h.ne_one

theorem truncate (h : Noted c) {depth : Nat} (hpos : 1 ≤ depth) :
    Noted { c with stack := c.stack.truncate depth } := by
  have hdepth : (c.stack.truncate depth).depth = min depth c.stack.depth := Stack.size_truncate _ _
  constructor
  · exact hdepth ▸ Nat.le_min.mpr ⟨hpos, h.pos⟩
  · exact hdepth ▸ Nat.le_trans (Nat.min_le_right _ _) h.le
  · exact h.ne_one

theorem push (h : Noted c) (state : StateId) (x : Symbol V) : Noted (c.push state x) := by
  have hdepth : (c.push state x).stack.depth = c.stack.depth + 1 := ParseStack.depth_push _ _ _
  have hmax := push_maxDepth c state x
  have hpos := h.pos
  constructor <;> omega

end Noted

namespace Recovery

theorem stable_noted (p : Parser σ V) : Stable p Noted fun _ => Noted := by
  constructor
  case unwound => exact fun h hpos => h.truncate hpos
  case entered =>
    exact fun h _ hfound _ => (h.truncate (errorShift?_bounds hfound).1).push _ _
  case widened => exact fun h _ hmodify => h.of_eq (depth_modifyTopSymbol hmodify) rfl
  constructor
  case stream => exact fun h _ => h.of_eq rfl rfl
  case traced => exact fun h => h.of_eq (by rw [trace_stack]) (by rw [trace_stats])
  case told => exact fun h _ => h.of_eq rfl rfl
  case simulated =>
    exact fun h hsim _ => h.of_eq (by rw [simulate_stack hsim]) (simulate_maxDepth hsim)
  case faulted =>
    exact fun h hsim _ => h.of_eq (by rw [simulate_stack hsim]) (simulate_maxDepth hsim)
  case simulating =>
    intro c c' fuel h hsim
    cases hsim with
    | before => exact .inl h
    | reading _ _ => exact .inl (h.of_eq rfl rfl)

end Recovery

namespace Parser

theorem shifted_maxDepth (p : Parser σ V) (target : StateId) (token : Symbol V)
    (c : Configuration σ V) : (p.shifted target token c).stats.maxDepth =
      max c.stats.maxDepth (p.shifted target token c).stack.depth := by
  rw [shifted, push_maxDepth, count_stats, trace_stats]

theorem reduced_maxDepth (p : Parser σ V) (rule : RuleId) (info : Rule) (memory : σ)
    (c : Configuration σ V) :
    (p.reduced rule info memory c).stats.maxDepth = c.stats.maxDepth := by
  simp [reduced]

theorem stable_noted (p : Parser σ V) (scanner : Scanner V) (goal : Option SymbolId) :
    p.Stable scanner goal Noted fun _ => Noted := by
  constructor
  case opened => exact fun _ => .initial _ _
  case marked => exact fun _ _ _ => .initial _ _
  case read =>
    intro c q h hread
    have hreads := readToken_spec hread
    have hnoted : Noted q.configuration :=
      h.of_eq (by rw [hreads.stack_eq]) (by rw [hreads.stats_eq])
    cases q with
    | running token c' => exact .running hnoted
    | finished result c' =>
      obtain ⟨fault, rfl⟩ := hreads.fault_of_finished result c' rfl
      exact .fault hnoted
  case shifted =>
    intro c entry token target h _ _
    have htraced : Noted ((c.trace p (.shift target token.id)).count fun stats =>
        { stats with tokensShifted := stats.tokensShifted + 1 }) :=
      h.of_eq (by simp) (by simp)
    exact htraced.push target token
  case reduced =>
    intro c rule info memory h _ hlength
    exact (h.truncate (Nat.sub_pos_of_lt hlength)).of_eq (by simp [reduced])
      (reduced_maxDepth p rule info memory c)
  case followed => exact fun h _ _ => h.push _ _
  case accepted => exact fun h => h.of_eq (by simp) (by simp)
  case reported => exact fun h => h.of_eq rfl rfl
  case repaired => exact fun h => h.of_eq rfl rfl
  case recovery => exact Recovery.stable_noted p

/-! ## Moments -/

/-- The moments of one parse are those of a parse of its scanner and its goal. -/
theorem Passes.momentOf (h : p.Passes scanner memory goal c) : p.MomentOf scanner goal c := by
  have hstarts : ∀ {stream start}, p.openFor scanner goal = .ok stream →
      (Configuration.initial stream memory).readToken = .ok start →
      p.Starts scanner goal start := by
    intro stream start hopen hread
    cases goal with
    | none => exact .parse hopen hread
    | some marker =>
      obtain ⟨opened, hopen, hlead⟩ := bind_eq_ok.mp hopen
      exact .parseGoal hopen hlead hread
  cases h with
  | opened hopen =>
    cases goal with
    | none => exact .opened hopen
    | some marker =>
      obtain ⟨opened, hopen, hlead⟩ := bind_eq_ok.mp hopen
      exact .marked rfl hopen hlead
  | between hopen hread hreach => exact .between (hstarts hopen hread) hreach
  | amid hopen hread hreach hstepping => exact .amid (hstarts hopen hread) hreach hstepping

theorem Passes.noted (h : p.Passes scanner memory goal c) : Noted c :=
  ((p.stable_noted scanner goal).held h.momentOf).of_unhurt

/-! ## Steps -/

theorem readToken_maxDepth (h : c.readToken = .ok q) :
    q.configuration.stats.maxDepth = c.stats.maxDepth :=
  congrArg Stats.maxDepth (readToken_spec h).stats_eq

theorem settle_maxDepth (h : settle r = .ok q) :
    q.configuration.stats.maxDepth = r.configuration.stats.maxDepth := by
  cases r with
  | repaired c =>
    rw [settle, liftM_eq_ok] at h
    have hread := readToken_maxDepth h
    exact hread
  | aborted e c =>
    cases h
    rfl

/-- A greater depth is found where a token is shifted, a goto is followed or the error symbol
is pushed. -/
theorem step_raises (h : p.step fuel token c = .ok q) :
    Raises (p.Stepping fuel token c) c q.configuration := by
  obtain ⟨entry, action, htop, hact, hdone⟩ := exists_act h
  cases action with
  | shift target =>
    refine .inr ⟨_, .shifted htop hact, ?_⟩
    rw [readToken_maxDepth (liftM_eq_ok.mp hdone), shifted_maxDepth]
  | reduce rule =>
    obtain ⟨info, memory, base, x, -, -, -, -, hfollow⟩ := reduce_follows (liftM_eq_ok.mp hdone)
    have hreduced := reduced_maxDepth p rule info memory c
    rcases follow_eq_ok hfollow with ⟨target, rfl⟩ | rfl
    · refine .inr ⟨_, .done h, ?_⟩
      rw [← hreduced]
      rfl
    · left
      rw [← hreduced]
      exact congrArg Stats.maxDepth (trace_stats _ _ _)
  | accept =>
    cases hdone
    exact .inl (congrArg Stats.maxDepth (trace_stats _ _ _))
  | error =>
    cases hon : p.settings.recovery with
    | false =>
      rw [act, repair_of_disabled hon] at hdone
      cases hdone
      exact .inl rfl
    | true =>
      by_cases hfew : (c.reported token).stats.syntaxErrors ≤ p.settings.maxErrors
      · rw [act, repair_of_few hon hfew] at hdone
        obtain ⟨r, hrecover, hsettle⟩ := bind_eq_ok.mp hdone
        rw [Raises, settle_maxDepth hsettle]
        -- Recovery raises the depth at a moment of its own, or not at all.
        rcases Recovery.recover_raises hrecover with hsame | ⟨m, hm, hraised⟩
        · exact .inl hsame
        · exact .inr ⟨m, .recovering htop hact hon hfew hm, hraised⟩
      · rw [act, repair_of_many hon (Nat.not_le.mp hfew)] at hdone
        cases hdone
        exact .inl rfl

/-- A step that returns has noted no greater depth on its way. -/
theorem Stepping.maxDepth_le (hmoment : p.Stepping fuel' token c c')
    (h : p.step fuel token c = .ok q) : c'.stats.maxDepth ≤ q.configuration.stats.maxDepth := by
  have hrecovers : ∀ {entry : Entry V}, c.stack.top = .ok entry →
      p.tables.action entry.state token.id = .ok .error → p.settings.recovery = true →
      (c.reported token).stats.syntaxErrors ≤ p.settings.maxErrors →
      ∀ {m}, Recovery.Recovering p fuel' token (c.reported token) m →
        m.stats.maxDepth ≤ q.configuration.stats.maxDepth := by
    intro entry htop hact hon hfew m hm
    rw [step_eq_act htop hact, act, repair_of_few hon hfew] at h
    obtain ⟨r, hrecover, hsettle⟩ := bind_eq_ok.mp h
    exact settle_maxDepth hsettle ▸ hm.maxDepth_le hrecover
  cases hmoment with
  | shifted htop hact =>
    rw [step_eq_act htop hact] at h
    exact Nat.le_of_eq (readToken_maxDepth (liftM_eq_ok.mp h)).symm
  | reduced _ _ _ _ _ _ => exact reduced_maxDepth p _ _ _ c ▸ (step_raises h).le
  | reported _ _ => exact (step_raises h).le
  | recovering htop hact hon hfew hm => exact hrecovers htop hact hon hfew hm
  | recovered htop hact hon hfew hdone =>
    have hm := hrecovers htop hact hon hfew (.done hdone)
    exact hm
  | done hdone =>
    cases step_unique h hdone
    exact Nat.le_refl _

/-! ## Parses -/

theorem maxDepth_mono (h : ReflTransGen p.Step q q') :
    q.configuration.stats.maxDepth ≤ q'.configuration.stats.maxDepth := by
  induction h with
  | refl => exact Nat.le_refl _
  | tail _ hstep ih =>
    obtain ⟨hstep⟩ := hstep
    exact Nat.le_trans ih (step_raises hstep).le

/-- A parse that returns has noted no greater depth on its way. -/
theorem Passes.maxDepth_le (hmoment : p.Passes scanner memory goal c)
    (h : p.parseFor fuel scanner memory goal = .ok outcome) :
    c.stats.maxDepth ≤ outcome.stats.maxDepth := by
  cases hmoment with
  | opened _ => exact Nat.zero_le _
  | between hopen hread hreach =>
    rw [parseFor_of_open hopen hread] at h
    obtain ⟨result, d, hrest, rfl⟩ := run_passes hreach h
    exact maxDepth_mono hrest
  | amid hopen hread hreach hstepping =>
    rw [parseFor_of_open hopen hread] at h
    obtain ⟨result, d, hend, rfl⟩ := run_passes hreach h
    -- The moment is one of the first step on the way to the end.
    rcases hend.cases_head with heq | ⟨q, hstep, hrest⟩
    · cases heq
    · obtain ⟨hstep⟩ := hstep
      exact Nat.le_trans (hstepping.maxDepth_le hstep) (maxDepth_mono hrest)

/-- The depths of the stack at the moments of a parse. -/
def depths (p : Parser σ V) (scanner : Scanner V) (memory : σ) (goal : Option SymbolId) :
    Set Nat :=
  {depth | ∃ c, p.Passes scanner memory goal c ∧ c.stack.depth = depth}

/-- A depth that a parse has noted is one that its stack has had. -/
theorem mem_depths_of_reaches {stream : TokenStream V}
    (hopen : p.openFor scanner goal = .ok stream)
    (hread : (Configuration.initial stream memory).readToken = .ok start)
    (hreach : ReflTransGen p.Step start q) : q.configuration.stats.maxDepth = 0 ∨
      q.configuration.stats.maxDepth ∈ p.depths scanner memory goal := by
  induction hreach with
  | refl => exact .inl (readToken_maxDepth hread)
  | tail hreach hstep ih =>
    obtain ⟨hstep⟩ := hstep
    rcases step_raises hstep with hsame | ⟨m, hm, hraised⟩
    · rwa [hsame]
    · rw [hraised]
      rcases max_choice (Configuration.stats _).maxDepth m.stack.depth with hold | hnew
      · rwa [hold]
      · rw [hnew]
        exact .inr ⟨m, .amid hopen hread hreach hm, rfl⟩

/-- A parse that returns counts the greatest depth that its stack has had at any moment, whatever
has been reduced or unwound since. Only if this is the depth of the bottom entry alone, it counts
none. -/
theorem greatest_depth_is_counted (h : p.parseFor fuel scanner memory goal = .ok outcome) :
    ∃ deepest, IsGreatest (p.depths scanner memory goal) deepest ∧
      outcome.stats.maxDepth = if deepest = 1 then 0 else deepest := by
  obtain ⟨stream, start, result, d, hopen, hread, hreach, rfl⟩ := parseFor_reaches h
  have hne : d.stats.maxDepth ≠ 1 := (Passes.between hopen hread hreach).noted.ne_one
  refine ⟨max d.stats.maxDepth 1, ⟨?_, ?_⟩, ?_⟩
  · rcases mem_depths_of_reaches hopen hread hreach with hnone | ⟨m, hm, hdepth⟩
    · rw [show d.stats.maxDepth = 0 from hnone]
      exact ⟨_, .opened hopen, rfl⟩
    · have hpos : 1 ≤ d.stats.maxDepth := hdepth ▸ hm.noted.pos
      rw [Nat.max_eq_left hpos]
      exact ⟨m, hm, hdepth⟩
  · rintro _ ⟨m, hm, rfl⟩
    have hle : m.stats.maxDepth ≤ d.stats.maxDepth := hm.maxDepth_le h
    have hdepth := hm.noted.le
    omega
  · show d.stats.maxDepth = _
    split <;> omega

/-- Three letters make the stack two entries deep, by a letter that is unwound and by the error
symbol in its place. -/
theorem greatest_depth_is_counted_letters : ∃ outcome,
    phraseParser.parseFor 10 (.ofItems letters) () none = .ok outcome ∧
      outcome.stats.maxDepth = 2 ∧ outcome.stats.errorsRecovered = 1 ∧
      IsGreatest (phraseParser.depths (.ofItems letters) () none) 2 := by
  obtain ⟨outcome, hparse, houtcome⟩ := exists_ok_of_any
    (show (phraseParser.parseFor 10 (.ofItems letters) () none).toOption.any
      (fun o => decide (o.stats.maxDepth = 2 ∧ o.stats.errorsRecovered = 1)) = true
      by decide +kernel)
  obtain ⟨hmax, hrecovered⟩ := of_decide_eq_true houtcome
  obtain ⟨deepest, hgreatest, hcounted⟩ := greatest_depth_is_counted hparse
  obtain rfl : deepest = 2 := by
    rw [hmax] at hcounted
    split at hcounted <;> omega
  exact ⟨outcome, hparse, hmax, hrecovered, hgreatest⟩

/-- Without any input nothing is pushed, and no depth is counted; but the bottom entry has been
on the stack. -/
theorem bottom_entry_is_not_counted : ∃ outcome,
    oneLetter.parseFor 10 (.ofTokens []) () none = .ok outcome ∧ outcome.stats.maxDepth = 0 ∧
      ¬IsGreatest (oneLetter.depths (.ofTokens []) () none) outcome.stats.maxDepth := by
  obtain ⟨outcome, hparse, houtcome⟩ := exists_ok_of_any
    (show (oneLetter.parseFor 10 (.ofTokens []) () none).toOption.any
      (fun o => decide (o.stats.maxDepth = 0)) = true by decide +kernel)
  have hzero := of_decide_eq_true houtcome
  refine ⟨outcome, hparse, hzero, ?_⟩
  rintro ⟨-, hupper⟩
  have hbottom : 1 ∈ oneLetter.depths (.ofTokens []) () none := ⟨_, .opened rfl, rfl⟩
  have hle := hupper hbottom
  omega

end Parser

end ShiftReduce
