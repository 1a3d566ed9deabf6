import Mathlib.Logic.Relation
import ShiftReduce.Proofs.Parser.Moves
import ShiftReduce.Proofs.Recovery.Refinement

/-!
# Runs of the parser

A run starts with the first token of a stream that is opened over a scanner, and
goes on by steps. Each step may use as much fuel as it needs.

* `Starts` and `Reachable`: how a parse begins, and where it can be.
* `run_reaches` and `Answers.reaches`: a parse that returns has reached its end.
* `repair_running`: a parse that goes on behind an error has been repaired.
* `Reachable.passing`: between steps the stream passes through, and its window is
  that of the settings.
-/

namespace ShiftReduce

open Automaton

variable {σ V : Type} {p : Parser σ V} {fuel w : Nat} {token token' : Symbol V}
  {c c' : Configuration σ V} {q q' : Progress σ V} {scanner : Scanner V}
  {goal : Option SymbolId} {memory : σ}

namespace Configuration

/-- The configuration in which a syntax error is to be repaired. -/
def reported (token : Symbol V) (c : Configuration σ V) : Configuration σ V :=
  (c.count fun stats => { stats with syntaxErrors := stats.syntaxErrors + 1 }).notify
    (.syntaxError token)

theorem repairs_reported (token : Symbol V) (c : Configuration σ V) :
    (c.reported token).repairs = c.repairs := by
  rw [reported, repairs_notify, repairs_count]
  exact List.append_nil _

/-- Where a parse stands between the entry on top and the current token. -/
def impasse (c : Configuration σ V) (top : Entry V) (below : List (Entry V)) (token : Symbol V) :
    Impasse V :=
  ⟨top, below, token, c.stream.pending⟩

end Configuration

def Repair.isRepaired : Repair σ V → Bool
  | .repaired _ => true
  | .aborted _ _ => false

namespace Parser

open Relation

/-! ## Steps that go on -/

/-- What a step does that goes on. -/
inductive Goes (p : Parser σ V) (token : Symbol V) (c : Configuration σ V) (token' : Symbol V)
    (c' : Configuration σ V) : Prop
  | shift {r : Response} {target : StateId} :
      Responds p.tables token.id c.stack.column r → r.reply = .shift target →
      c'.stack.column = r.stack → c.stream.pending = Stream'.cons token' c'.stream.pending →
      c'.repairs = c.repairs → c'.stats.tokensShifted = c.stats.tokensShifted + 1 →
      Goes p token c token' c'
  | reduce {r : Response} {rule : RuleId} {target : StateId} :
      Responds p.tables token.id c.stack.column r → r.reply = .reduce rule target →
      c'.stack.column = r.stack → token' = token → c'.stream.pending = c.stream.pending →
      c'.repairs = c.repairs → c'.stats.tokensShifted = c.stats.tokensShifted →
      Goes p token c token' c'
  | repair {top : Entry V} {below : List (Entry V)} {P : Proposal V} :
      c.stack.topDown = top :: below → p.tables.action top.state token.id = .ok .error →
      token.id ≠ eof →
      Prescribed p.tables (max c.stream.window 1) (c.impasse top below token) (.repaired P) →
      c'.stack.topDown = P.stack → P.input = Stream'.cons token' c'.stream.pending →
      c'.repairs = c.repairs ++ [P.notice] →
      c'.stats.tokensShifted = c.stats.tokensShifted → Goes p token c token' c'

/-- A parse that goes on behind an error has been repaired, and it goes on with the
first token of the repaired input. -/
theorem repair_running (h : p.repair fuel token c = .ok (.running token' c')) :
    ∃ c₁, Recovery.recover p fuel token (c.reported token) = .ok (.repaired c₁) ∧
      (c₁.count fun stats =>
        { stats with errorsRecovered := stats.errorsRecovered + 1 }).readToken =
          .ok (.running token' c') := by
  unfold repair at h
  split at h
  · cases h
  · simp only at h
    split at h
    · cases h
    · obtain ⟨r, hrecover, h⟩ := bind_eq_ok.mp h
      cases r with
      | repaired c₁ => exact ⟨c₁, hrecover, liftM_eq_ok.mp h⟩
      | aborted e c₁ => cases h

theorem topDown_of_responds_error {r : Response}
    (hr : Responds p.tables token.id c.stack.column r) (hreply : r.reply = .refuse .errorAction) :
    ∃ top below, c.stack.topDown = top :: below ∧
      p.tables.action top.state token.id = .ok .error := by
  generalize hcol : c.stack.column = column at hr
  cases hr with
  | error hact =>
    rw [ParseStack.column, List.map_eq_cons_iff] at hcol
    obtain ⟨top, below, htop, rfl, -⟩ := hcol
    exact ⟨top, below, htop, hact⟩
  | _ => cases hreply

theorem repair_goes (h : p.repair fuel token c = .ok (.running token' c'))
    {top : Entry V} {below : List (Entry V)} (hstack : c.stack.topDown = top :: below)
    (herror : p.tables.action top.state token.id = .ok .error) :
    Goes p token c token' c' ∧ c'.stream.window = c.stream.window ∧
      c'.stream.buffering = false := by
  obtain ⟨c₁, hrecover, hread⟩ := repair_running h
  have hreads := Configuration.readToken_spec hread
  have heof : token.id ≠ eof := by
    intro heof
    rw [Recovery.recover_of_eof p fuel _ heof] at hrecover
    cases hrecover
  obtain ⟨hresolves, -⟩ := Recovery.recover_spec (i := c.impasse top below token) hrecover hstack
    rfl heof herror
  cases hresolves with
  | repaired ho hc =>
    have hpending := hreads.pending_eq _ _ rfl
    refine ⟨.repair hstack herror heof ho (hreads.stack_eq ▸ hc.stack) ?_ ?_ ?_, ?_, ?_⟩
    · rw [← hc.pending]
      exact hpending
    · rw [show c'.repairs = c₁.repairs from hreads.repairs_eq, hc.repairs,
        Configuration.repairs_reported]
    · rw [show c'.stats = _ from hreads.stats_eq]
      exact hc.tokensShifted
    · exact hreads.window_eq.trans hc.window
    · exact hreads.buffering_eq

/-- A step that goes on shifts, reduces or repairs, and leaves a stream that passes
through with the same window. -/
theorem step_goes (h : p.step fuel token c = .ok (.running token' c'))
    (hmode : c.stream.buffering = false) :
    Goes p token c token' c' ∧ c'.stream.window = c.stream.window ∧
      c'.stream.buffering = false := by
  obtain ⟨r, hmove⟩ := step_cases h
  -- Only these three moves go on; all others end the parse.
  cases hmove with
  | shift hr hreply hread =>
    have hreads := Configuration.readToken_spec hread
    have hstack : c'.stack = _ := hreads.stack_eq
    have hrepairs : c'.repairs = _ := hreads.repairs_eq
    have hstats : c'.stats = _ := hreads.stats_eq
    have hpending := hreads.pending_eq _ _ rfl
    have hwindow := hreads.window_eq
    rw [shifted_stream] at hpending hwindow
    refine ⟨.shift hr hreply ?_ hpending ?_ ?_, hwindow, hreads.buffering_eq⟩
    · rw [hstack]
      exact (step_of_shift hr hreply fuel).2
    · rw [hrepairs, repairs_shifted]
    · rw [hstats, tokensShifted_shifted]
  | reduce hr hreply hrule hlhs hlen =>
    refine ⟨.reduce hr hreply ?_ rfl ?_ ?_ ?_, ?_, ?_⟩
    · rw [Configuration.push_stack, ParseStack.column_push, column_reduced hlen,
        Response.stack, hreply, hr.kept_of_reduce hreply hrule]
      rfl
    · rw [Configuration.push_stream, reduced_stream]
    · rw [Configuration.repairs_push, repairs_reduced]
    · rw [Configuration.push_tokensShifted, tokensShifted_reduced]
    · rw [Configuration.push_stream, reduced_stream]
    · rw [Configuration.push_stream, reduced_stream, hmode]
  | repair hr hreply hrepair =>
    obtain ⟨top, below, hstack, herror⟩ := topDown_of_responds_error hr hreply
    exact repair_goes hrepair hstack herror

/-! ## Runs -/

/-- One step, with some fuel. -/
inductive Step (p : Parser σ V) : Progress σ V → Progress σ V → Prop
  | intro {fuel : Nat} {token : Symbol V} {c : Configuration σ V} {q : Progress σ V} :
      p.step fuel token c = .ok q → Step p (.running token c) q

/-- A parse of what a scanner delivers, with the marker of a goal in front or without
one, when the first token has been read. -/
inductive Starts (p : Parser σ V) (scanner : Scanner V) : Option SymbolId → Progress σ V → Prop
  | parse {stream : TokenStream V} {memory : σ} {q : Progress σ V} :
      TokenStream.ofScanner scanner p.settings.window p.slotBytes = .ok stream →
      (Configuration.initial stream memory).readToken = .ok q → Starts p scanner none q
  | parseGoal {stream stream' : TokenStream V} {marker : SymbolId} {memory : σ}
      {q : Progress σ V} :
      TokenStream.ofScanner scanner p.settings.window p.slotBytes = .ok stream →
      stream.withLeading (goalMarker marker) = .ok stream' →
      (Configuration.initial stream' memory).readToken = .ok q → Starts p scanner (some marker) q

/-- The input of a parse: the marker of its goal, and what the scanner delivers. -/
def inputOf (scanner : Scanner V) (goal : Option SymbolId) : Stream' (Symbol V) :=
  (goal.map goalMarker).toList ++ₛ scanner.yields

/-- Where a parse can be. -/
def Reachable (p : Parser σ V) (q : Progress σ V) : Prop :=
  ∃ scanner goal start, Starts p scanner goal start ∧ ReflTransGen p.Step start q

/-- A run that returns has reached its end, and it returns what is there. -/
theorem run_reaches {outcome : Outcome σ V} (h : p.run fuel q = .ok outcome) :
    ∃ result c, ReflTransGen p.Step q (.finished result c) ∧
      outcome = ⟨result, c.stats, c.notices, c.memory⟩ := by
  induction fuel generalizing q with
  | zero =>
    cases q with
    | running token c => cases h
    | finished result c =>
      cases h
      exact ⟨result, c, .refl, rfl⟩
  | succ fuel ih =>
    cases q with
    | running token c =>
      obtain ⟨q', hstep, h⟩ := bind_eq_ok.mp h
      obtain ⟨result, c', hreach, houtcome⟩ := ih h
      exact ⟨result, c', .head (.intro hstep) hreach, houtcome⟩
    | finished result c =>
      cases h
      exact ⟨result, c, .refl, rfl⟩

/-- What the parse of a scanner and a goal comes to, if there is fuel enough. -/
inductive Answers (p : Parser σ V) (scanner : Scanner V) :
    Option SymbolId → Outcome σ V → Prop
  | parse {fuel : Nat} {memory : σ} {outcome : Outcome σ V} :
      p.parse fuel scanner memory = .ok outcome → Answers p scanner none outcome
  | parseGoal {fuel : Nat} {marker : SymbolId} {memory : σ} {outcome : Outcome σ V} :
      p.parseGoal fuel scanner marker memory = .ok outcome →
      Answers p scanner (some marker) outcome

/-- A parse that returns has reached its end. -/
theorem Answers.reaches {outcome : Outcome σ V} (h : p.Answers scanner goal outcome) :
    ∃ start c, p.Starts scanner goal start ∧
      ReflTransGen p.Step start (.finished outcome.result c) ∧
      outcome.stats = c.stats ∧ outcome.notices = c.notices := by
  have hruns : ∀ {fuel : Nat} {start : Progress σ V}, p.Starts scanner goal start →
      p.run fuel start = .ok outcome → ∃ start c, p.Starts scanner goal start ∧
        ReflTransGen p.Step start (.finished outcome.result c) ∧
        outcome.stats = c.stats ∧ outcome.notices = c.notices := by
    intro fuel start hstart hrun
    obtain ⟨result, c, hreach, rfl⟩ := run_reaches hrun
    exact ⟨start, c, hstart, hreach, rfl, rfl⟩
  cases h with
  | parse h =>
    obtain ⟨stream, hopen, h⟩ := bind_eq_ok.mp h
    obtain ⟨start, hread, h⟩ := bind_eq_ok.mp h
    exact hruns (.parse (liftM_eq_ok.mp hopen) (liftM_eq_ok.mp hread)) h
  | parseGoal h =>
    obtain ⟨stream, hopen, h⟩ := bind_eq_ok.mp h
    obtain ⟨marked, hlead, h⟩ := bind_eq_ok.mp h
    obtain ⟨start, hread, h⟩ := bind_eq_ok.mp h
    exact hruns (.parseGoal (liftM_eq_ok.mp hopen) (liftM_eq_ok.mp hlead)
      (liftM_eq_ok.mp hread)) h

/-! ## Between steps -/

/-- While a parse runs, the stream passes through, with one and the same window. -/
def Passing (w : Nat) : Progress σ V → Prop
  | .running _ c => c.stream.buffering = false ∧ c.stream.window = w
  | .finished _ _ => True

theorem Passing.step (h : p.Step q q') (hq : Passing w q) : Passing w q' := by
  cases h with
  | intro hstep =>
    cases q' with
    | finished result c' => trivial
    | running token' c' =>
      obtain ⟨-, hwindow, hmode⟩ := step_goes hstep hq.1
      exact ⟨hmode, hwindow.trans hq.2⟩

theorem Passing.reaches (h : ReflTransGen p.Step q q') (hq : Passing w q) : Passing w q' := by
  induction h with
  | refl => exact hq
  | tail _ hstep ih => exact .step hstep ih

/-- A parse starts with the first token of its input, and has told no repair. -/
theorem Starts.running (h : p.Starts scanner goal (.running token c)) :
    inputOf scanner goal = Stream'.cons token c.stream.pending ∧ c.repairs = [] ∧
      Passing (max p.settings.window 1) (.running token c) := by
  cases h with
  | parse hopen hread =>
    obtain ⟨hpending, hwindow, hmode, -⟩ := TokenStream.ofScanner_spec hopen
    have hreads := Configuration.readToken_spec hread
    refine ⟨?_, hreads.repairs_eq, hreads.buffering_eq, hreads.window_eq.trans hwindow⟩
    show [] ++ₛ scanner.yields = _
    rw [Stream'.nil_append_stream, ← hpending]
    exact hreads.pending_eq _ _ rfl
  | parseGoal hopen hlead hread =>
    obtain ⟨hpending, hwindow, hmode, hnil⟩ := TokenStream.ofScanner_spec hopen
    obtain ⟨hpending', hwindow', hmode'⟩ := TokenStream.withLeading_spec hlead hnil
    have hreads := Configuration.readToken_spec hread
    refine ⟨?_, hreads.repairs_eq, hreads.buffering_eq,
      hreads.window_eq.trans (hwindow'.trans hwindow)⟩
    show [goalMarker _] ++ₛ scanner.yields = _
    rw [Stream'.cons_append_stream, Stream'.nil_append_stream, ← hpending, ← hpending']
    exact hreads.pending_eq _ _ rfl

theorem Reachable.passing (h : p.Reachable q) : Passing (max p.settings.window 1) q := by
  obtain ⟨scanner, goal, start, hstart, hreach⟩ := h
  apply Passing.reaches hreach
  cases start with
  | running token c => exact hstart.running.2.2
  | finished result c => trivial

/-! ## A small parser -/

/-- Tables for a single letter: rule `0` produces symbol `2` from terminal `1`. -/
def oneLetterTables : PackedTables where
  parts :=
    { codes := #[1, -1, -2]
      owners := #[1, 0, 2]
      actionOffsets := #[-1, 1]
      gotoOffsets := #[0, Tables.unusedOffset]
      defaults := #[]
      rules := #[.pack 2 1]
      terminalCount := 2
      symbolCount := 3
      errorSymbol := none
      compressed := false }
  sound := by decide +kernel

def oneLetter : Parser Unit Unit := ⟨oneLetterTables, .nothing, .standard, 12⟩

def letter : Symbol Unit := .empty 1 .zero .zero

/-- Behind a letter, another one is a syntax error that can be repaired. -/
theorem oneLetter_reaches_error : ∃ c, oneLetter.Reachable (.running letter c) ∧
    c.stack.topDown = [⟨1, letter⟩, ⟨startState, .empty eof .zero .zero⟩] ∧
    (Recovery.recover oneLetter 10 letter (c.reported letter)).toOption.any
      Repair.isRepaired = true := by
  refine ⟨_, ⟨.ofTokens [letter, letter], _, _, @Starts.parse _ _ oneLetter _ _ () _ rfl rfl,
    .single (@Step.intro _ _ oneLetter 10 _ _ _ rfl)⟩, rfl, ?_⟩
  decide +kernel

end Parser

end ShiftReduce
