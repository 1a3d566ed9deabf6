import ShiftReduce.Proofs.MoreFuel
import ShiftReduce.Proofs.Parser.Growth
import ShiftReduce.Proofs.Parser.Opening

/-!
# Larger budgets

A parse with more lenient settings does what the stricter one does, until that one gives up at
a syntax error. There the two part: the stricter parse has ended, and what the other one tells
from there on comes behind what both have told.

* `run_alongside` and `reaches_alongside`: runs, up to where they part.
* `parseFor_alongside`, `Passes.alongside` and `notices_prefix`: whole parses.
* `larger_budget_extends_parses`: a larger number of errors, and recovery at all.
-/

namespace ShiftReduce

open Relation

variable {σ V : Type} {loose : Bool} {p : Parser σ V} {s : Settings} {fuel fuel' : Nat}
  {token : Symbol V} {c c' : Configuration σ V} {q q' r : Progress σ V} {o o' : Outcome σ V}
  {scanner : Scanner V} {goal : Option SymbolId} {memory : σ} {stream stream' : TokenStream V}

/-- The outcome of a parse that ends in a configuration. -/
def Configuration.outcome (c : Configuration σ V) (result : Except ParseError (Option V)) :
    Outcome σ V :=
  ⟨result, c.stats, c.notices, c.memory⟩

theorem Configuration.Alike.outcome_eq (h : c.Alike c') (result : Except ParseError (Option V)) :
    c'.outcome result = c.outcome result := by
  rw [outcome, outcome, h.stats_eq, h.notices_eq, h.memory_eq]

namespace Parser

theorem run_finished (p : Parser σ V) (fuel : Nat) (result : Except ParseError (Option V))
    (c : Configuration σ V) : p.run fuel (.finished result c) = .ok (c.outcome result) := by
  cases fuel <;> rfl

/-! ## Runs -/

/-- Two runs part at a syntax error at which the stricter parser gives up. -/
structure PartAt (p : Parser σ V) (s : Settings) (loose : Bool) (q q' : Progress σ V)
    (reason : Unrecoverable) (token : Symbol V) (c c' : Configuration σ V) : Prop where
  stops : p.StopsShort s reason token c
  alongside : Alongside loose c c'
  reaches : ReflTransGen p.Step q (.running token c)
  reaches' : ReflTransGen (p.withSettings s).Step q' (.running token c')

/-- A run ends with more lenient settings as it does with the stricter ones, or the two part. -/
theorem run_alongside (hs : p.settings.Lenient loose s) (h : q.Related (Alongside loose) q')
    (fuel : Nat) :
    (p.withSettings s).run fuel q' = p.run fuel q ∨
      ∃ reason token c c', p.PartAt s loose q q' reason token c c' ∧
        p.run fuel q =
          .ok ((c.reported token).outcome (.error (.unrecoverable reason token.start))) := by
  -- By induction on the fuel, as long as both make the same step.
  induction fuel generalizing q q' with
  | zero =>
    cases h with
    | running _ => exact .inl rfl
    | finished hc =>
      rw [run_finished, run_finished, hc.alike.outcome_eq]
      exact .inl rfl
  | succ fuel ih =>
    cases h with
    | finished hc =>
      rw [run_finished, run_finished, hc.alike.outcome_eq]
      exact .inl rfl
    | @running token c c' hc =>
      rcases step_alongside hs hc token with hagree | ⟨reason, hstop⟩
      · rw [run, run]
        generalize hx : p.step fuel token c = x
        generalize hx' : (p.withSettings s).step fuel token c' = x'
        have hfuel := hagree fuel
        rw [hx, hx'] at hfuel
        cases hfuel with
        | error e => exact .inl rfl
        | ok hq =>
          rw [ok_bind, ok_bind]
          rcases ih hq with heq | ⟨reason, token', d, d', hpart, hrun⟩
          · exact .inl heq
          · exact .inr ⟨reason, token', d, d', ⟨hpart.stops, hpart.alongside,
              .head (.intro hx) hpart.reaches, .head (.intro hx') hpart.reaches'⟩, hrun⟩
      · refine .inr ⟨reason, token, c, c', ⟨hstop, hc, .refl, .refl⟩, ?_⟩
        rw [run, hstop.step_eq, ok_bind, givenUp, run_finished]

/-- Wherever a run comes, the one with more lenient settings comes as well, or the two part and
the first one is at its end. -/
theorem reaches_alongside (hs : p.settings.Lenient loose s) (h : q.Related (Alongside loose) q')
    (hreach : ReflTransGen p.Step q r) :
    (∃ r', r.Related (Alongside loose) r' ∧ ReflTransGen (p.withSettings s).Step q' r') ∨
      ∃ reason token c c', p.PartAt s loose q q' reason token c c' ∧
        r = givenUp reason token c := by
  induction hreach with
  | refl => exact .inl ⟨q', h, .refl⟩
  | tail hreach hstep ih =>
    cases hstep with
    | @intro fuel token c q hstep =>
      rcases ih with ⟨r', hr, hreach'⟩ | ⟨_, _, _, _, -, hq⟩
      · cases hr with
        | @running _ _ c' hc =>
          rcases step_alongside hs hc token with hagree | ⟨reason, hstop⟩
          · obtain ⟨q', hstep', hq⟩ := (hagree fuel).exists_ok hstep
            exact .inl ⟨q', hq, .tail hreach' (.intro hstep')⟩
          · refine .inr ⟨reason, token, c, c', ⟨hstop, hc, hreach, hreach'⟩, ?_⟩
            rw [hstop.step_eq] at hstep
            exact (Except.ok.inj hstep).symm
      · cases hq

theorem step_rightUnique (p : Parser σ V) : Relator.RightUnique p.Step := by
  rintro q q₁ q₂ ⟨h₁⟩ ⟨h₂⟩
  exact step_unique h₁ h₂

/-- A run that returns goes on from wherever it comes to its end. -/
theorem run_passes (hreach : ReflTransGen p.Step q r) (hrun : p.run fuel q = .ok o) :
    ∃ result c, ReflTransGen p.Step r (.finished result c) ∧ o = c.outcome result := by
  obtain ⟨result, c, hend, rfl⟩ := run_reaches hrun
  refine ⟨result, c, ?_, rfl⟩
  -- There is no step behind the end.
  rcases ReflTransGen.total_of_right_unique p.step_rightUnique hreach hend with h | h
  · exact h
  · rcases h.cases_head with rfl | ⟨_, hstep, -⟩
    · exact .refl
    · cases hstep

/-- A run that has come to a syntax error ends with notices that go on from there. -/
theorem reported_prefix (hreach : ReflTransGen p.Step q (.running token c))
    (herrs : p.Errs token c) (hrun : p.run fuel q = .ok o) :
    (c.reported token).notices.toList <+: o.notices.toList := by
  obtain ⟨result, c', hrest, rfl⟩ := run_passes hreach hrun
  rcases hrest.cases_head with heq | ⟨q, hstep, hrest⟩
  · cases heq
  · obtain ⟨hstep⟩ := hstep
    have hgrow := notices_grow hrest
    rcases step_quiet hstep with ⟨-, hquiet⟩ | ⟨hok, -⟩
    · exact hquiet.isPrefix.trans hgrow
    · exact absurd herrs hok

/-! ## Parses -/

/-- The moments of a parse. -/
inductive Passes (p : Parser σ V) (scanner : Scanner V) (memory : σ) (goal : Option SymbolId) :
    Configuration σ V → Prop
  | opened {stream : TokenStream V} : p.openFor scanner goal = .ok stream →
      Passes p scanner memory goal (.initial stream memory)
  | between {stream : TokenStream V} {start q : Progress σ V} :
      p.openFor scanner goal = .ok stream →
      (Configuration.initial stream memory).readToken = .ok start →
      ReflTransGen p.Step start q → Passes p scanner memory goal q.configuration
  | amid {stream : TokenStream V} {start : Progress σ V} {fuel : Nat} {token : Symbol V}
      {c c' : Configuration σ V} : p.openFor scanner goal = .ok stream →
      (Configuration.initial stream memory).readToken = .ok start →
      ReflTransGen p.Step start (.running token c) → p.Stepping fuel token c c' →
      Passes p scanner memory goal c'

/-! ## The outcome -/

/-- A parse that returns has opened its stream, and its run has come to the end. -/
theorem parseFor_reaches (h : p.parseFor fuel scanner memory goal = .ok o) :
    ∃ stream start result c, p.openFor scanner goal = .ok stream ∧
      (Configuration.initial stream memory).readToken = .ok start ∧
      ReflTransGen p.Step start (.finished result c) ∧ o = c.outcome result := by
  cases hopen : p.openFor scanner goal with
  | error b =>
    rw [parseFor_of_error hopen] at h
    cases h
  | ok stream =>
    obtain ⟨start, hread⟩ := Configuration.exists_readToken
      (c := .initial stream memory) (openFor_spec hopen).1
    rw [parseFor_of_open hopen hread] at h
    obtain ⟨result, c, hreach, houtcome⟩ := run_reaches h
    exact ⟨stream, start, result, c, rfl, hread, hreach, houtcome⟩

theorem openFor_alongside (hs : p.settings.Lenient loose s)
    (h : p.openFor scanner goal = .ok stream)
    (h' : (p.withSettings s).openFor scanner goal = .ok stream') (memory : σ) :
    Alongside loose (.initial stream memory) (.initial stream' memory) := by
  cases hloose : loose with
  | true =>
    obtain ⟨hmode, hscanner, hbuffered⟩ := openFor_spec h
    obtain ⟨hmode', hscanner', hbuffered'⟩ := openFor_spec h'
    exact .apart rfl ⟨hmode, hmode', hscanner'.trans hscanner.symm,
      hbuffered'.trans hbuffered.symm⟩
  | false =>
    have hsame : (p.withSettings s).openFor scanner goal = p.openFor scanner goal := by
      cases goal <;> simp only [openFor, withSettings, hs.window_eq hloose]
    rw [hsame, h] at h'
    cases h'
    exact .same

/-! ## Two parses -/

section

variable (hs : p.settings.Lenient loose s) (hopen : p.openFor scanner goal = .ok stream)
  (hopen' : (p.withSettings s).openFor scanner goal = .ok stream')

include hs hopen hopen'

theorem starts_alongside (memory : σ) : ∃ start start',
    (Configuration.initial stream memory).readToken = .ok start ∧
    (Configuration.initial stream' memory).readToken = .ok start' ∧
    start.Related (Alongside loose) start' := by
  have hinitial := openFor_alongside hs hopen hopen' memory
  obtain ⟨start, hread⟩ := Configuration.exists_readToken
    (c := .initial stream memory) (openFor_spec hopen).1
  obtain ⟨start', hread', hstart⟩ :=
    ((Alongside.lockstep hs.trace_eq).readToken hinitial).exists_ok hread
  exact ⟨start, start', hread, hread', hstart⟩

/-- A parse ends with more lenient settings as it does with the stricter ones, or the two part
at a syntax error. -/
theorem parseFor_alongside (memory : σ) (fuel : Nat) :
    (p.withSettings s).parseFor fuel scanner memory goal =
        p.parseFor fuel scanner memory goal ∨
      ∃ start start' reason token c c',
        (Configuration.initial stream' memory).readToken = .ok start' ∧
        p.PartAt s loose start start' reason token c c' ∧
        p.parseFor fuel scanner memory goal =
          .ok ((c.reported token).outcome (.error (.unrecoverable reason token.start))) := by
  obtain ⟨start, start', hread, hread', hstart⟩ := starts_alongside hs hopen hopen' memory
  rw [parseFor_of_open hopen hread, parseFor_of_open hopen' hread']
  rcases run_alongside hs hstart fuel with heq | ⟨reason, token, c, c', hpart, hrun⟩
  · exact .inl heq
  · exact .inr ⟨start, start', reason, token, c, c', hread', hpart, hrun⟩

/-- What a parse passes, it also passes with more lenient settings. -/
theorem Passes.alongside (h : p.Passes scanner memory goal c) :
    ∃ c', (p.withSettings s).Passes scanner memory goal c' ∧ Alongside loose c c' := by
  obtain ⟨start, start', hread, hread', hstart⟩ := starts_alongside hs hopen hopen' memory
  cases h with
  | opened hopened =>
    rw [hopen] at hopened
    cases hopened
    exact ⟨_, .opened hopen', openFor_alongside hs hopen hopen' memory⟩
  | between hopened hread₁ hreach =>
    rw [hopen] at hopened
    cases hopened
    rw [hread] at hread₁
    cases hread₁
    rcases reaches_alongside hs hstart hreach with
      ⟨q', hq, hreach'⟩ | ⟨reason, token, c, c', hpart, rfl⟩
    · exact ⟨_, .between hopen' hread' hreach', hq.configuration⟩
    -- Where the first parse is given up, the other one has reported the same error.
    · obtain ⟨entry, htop, hact⟩ := hpart.stops.errs.alongside hpart.alongside s
      have hreported : (p.withSettings s).Stepping 0 token c' (c'.reported token) :=
        .reported htop hact
      exact ⟨_, .amid hopen' hread' hpart.reaches' hreported,
        (Alongside.lockstep hs.trace_eq).reported hpart.alongside token⟩
  | amid hopened hread₁ hreach hstepping =>
    rw [hopen] at hopened
    cases hopened
    rw [hread] at hread₁
    cases hread₁
    rcases reaches_alongside hs hstart hreach with
      ⟨q', hq, hreach'⟩ | ⟨_, _, _, _, -, hq⟩
    · cases hq with
      | running hc =>
        obtain ⟨d', hstepping', hd⟩ := hstepping.alongside hs hc
        exact ⟨d', .amid hopen' hread' hreach' hstepping', hd⟩
    · cases hq

/-- What a parse tells with more lenient settings goes on from what it tells with the stricter
ones. -/
theorem notices_prefix (h : p.parseFor fuel scanner memory goal = .ok o)
    (h' : (p.withSettings s).parseFor fuel' scanner memory goal = .ok o') :
    o.notices.toList <+: o'.notices.toList := by
  rcases parseFor_alongside hs hopen hopen' memory fuel with
    heq | ⟨start, start', reason, token, c, c', hread', hpart, hend⟩
  · obtain ⟨start, start', hread, hread', -⟩ := starts_alongside hs hopen hopen' memory
    rw [h, parseFor_of_open hopen' hread'] at heq
    rw [parseFor_of_open hopen' hread'] at h'
    cases run_unique heq h'
    exact List.prefix_rfl
  · rw [hend] at h
    cases h
    rw [parseFor_of_open hopen' hread'] at h'
    have herrs := hpart.stops.errs.alongside hpart.alongside s
    have hgrows := reported_prefix hpart.reaches' herrs h'
    have hreported := (Alongside.lockstep hs.trace_eq).reported hpart.alongside token
    rw [hreported.alike.notices_eq] at hgrows
    exact hgrows

end

/-- How a parse ends without recovery: it has told no syntax error, or it has stopped at the
first. -/
theorem outcome_of_disabled (hoff : p.settings.recovery = false)
    (hread : (Configuration.initial stream memory).readToken = .ok q)
    (hrun : p.run fuel q = .ok o) :
    (∀ n ∈ o.notices.toList, n.isSyntaxError = false) ∨
      ∃ token told, o.result = .error (.unrecoverable .recoveryDisabled token.start) ∧
        o.notices.toList = told ++ [.syntaxError token] ∧ ∀ n ∈ told, n.isSyntaxError = false := by
  obtain ⟨result, c, hreach, rfl⟩ := run_reaches hrun
  have hinitial : ErrorFree (.initial stream memory : Configuration σ V) := by
    intro n hn
    cases hn
  have hstart := (readToken_adds plain_quiet hread).forall_mem hinitial
  rcases errorFree_of_reaches hoff hstart hreach with
    hfree | ⟨token, c, -, -, hfree, hend⟩
  · exact .inl hfree
  · cases hend
    exact .inr ⟨token, _, rfl, Array.toList_push, hfree⟩

/-! ## Budgets and recovery -/

/-- The same parser with another number of errors after which it gives up. -/
def withBudget (p : Parser σ V) (m : Nat) : Parser σ V :=
  p.withSettings { p.settings with maxErrors := m }

/-- A parse goes on from one that may have come to the end of its budget. -/
structure Outlasts (p p' : Parser σ V) (scanner : Scanner V) (memory : σ)
    (goal : Option SymbolId) : Prop where
  passes : ∀ c, p.Passes scanner memory goal c → p'.Passes scanner memory goal c
  notices_prefix : ∀ fuel fuel' o o', p.parseFor fuel scanner memory goal = .ok o →
    p'.parseFor fuel' scanner memory goal = .ok o' → o.notices.toList <+: o'.notices.toList
  /-- Only the end of the budget makes them different. -/
  outcome : ∀ fuel, p'.parseFor fuel scanner memory goal = p.parseFor fuel scanner memory goal ∨
    ∃ o position, p.parseFor fuel scanner memory goal = .ok o ∧
      o.result = .error (.unrecoverable .tooManyErrors position)

/-- A parse recovers from the syntax errors that end another one, if there are any. -/
structure RecoversFrom (p p' : Parser σ V) (scanner : Scanner V) (memory : σ)
    (goal : Option SymbolId) : Prop where
  passes : ∀ c, p.Passes scanner memory goal c →
    ∃ c', p'.Passes scanner memory goal c' ∧ c.Alike c'
  /-- They are the same if there is no syntax error, and otherwise the first one ends the parse
  that does not recover. -/
  outcome : ∀ fuel,
    (p'.parseFor fuel scanner memory goal = p.parseFor fuel scanner memory goal ∧
      ∀ o, p.parseFor fuel scanner memory goal = .ok o →
        ∀ n ∈ o.notices.toList, n.isSyntaxError = false) ∨
    ∃ o token told, p.parseFor fuel scanner memory goal = .ok o ∧
      o.result = .error (.unrecoverable .recoveryDisabled token.start) ∧
      o.notices.toList = told ++ [.syntaxError token] ∧
      (∀ n ∈ told, n.isSyntaxError = false) ∧
      ∀ fuel' o', p'.parseFor fuel' scanner memory goal = .ok o' →
        o.notices.toList <+: o'.notices.toList

theorem outlasts_withBudget {m : Nat} (h : p.settings.maxErrors ≤ m) (scanner : Scanner V)
    (memory : σ) (goal : Option SymbolId) : p.Outlasts (p.withBudget m) scanner memory goal := by
  have hs : p.settings.Lenient false { p.settings with maxErrors := m } :=
    ⟨rfl, id, fun _ => h, fun _ => rfl, fun hloose => absurd hloose Bool.false_ne_true⟩
  have hsame : (p.withBudget m).openFor scanner goal = p.openFor scanner goal := by
    cases goal <;> rfl
  cases hopen : p.openFor scanner goal with
  | error b =>
    rw [hopen] at hsame
    constructor
    -- Where the buffer cannot be had, there are no moments.
    · intro c hpass
      cases hpass with
      | opened hopened | between hopened _ _ | amid hopened _ _ _ =>
        rw [hopen] at hopened
        cases hopened
    · intro fuel fuel' o o' hparse
      rw [parseFor_of_error hopen] at hparse
      cases hparse
    · intro fuel
      rw [parseFor_of_error hopen, parseFor_of_error hsame]
      exact .inl rfl
  | ok stream =>
    rw [hopen] at hsame
    constructor
    · intro c hpass
      obtain ⟨c', hpass', hc⟩ := hpass.alongside hs hopen hsame
      rwa [hc.eq_of_strict] at hpass'
    · intro fuel fuel' o o' hparse hparse'
      exact notices_prefix hs hopen hsame hparse hparse'
    · intro fuel
      rcases parseFor_alongside hs hopen hsame memory fuel with
        heq | ⟨_, _, reason, token, c, _, _, hpart, hend⟩
      · exact .inl heq
      · refine .inr ⟨_, token.start, hend, ?_⟩
        cases hpart.stops.stricter with
        | disabled hoff hon => exact absurd (hoff.symm.trans hon) Bool.false_ne_true
        | limited _ => rfl

theorem recoversFrom_withSettings (hoff : p.settings.recovery = false) (hon : s.recovery = true)
    (htrace : s.trace = p.settings.trace) (hopen : p.openFor scanner goal = .ok stream)
    (hopen' : (p.withSettings s).openFor scanner goal = .ok stream') (memory : σ) :
    p.RecoversFrom (p.withSettings s) scanner memory goal := by
  have hs : p.settings.Lenient true s :=
    ⟨htrace, fun _ => hon, fun h => absurd (hoff.symm.trans h) Bool.false_ne_true,
      fun h => absurd h.symm Bool.false_ne_true, fun _ => hoff⟩
  constructor
  · intro c hpass
    obtain ⟨c', hpass', hc⟩ := hpass.alongside hs hopen hopen'
    exact ⟨c', hpass', hc.alike⟩
  · intro fuel
    -- Both parses end alike, or the first one is given up, and then at its first error.
    have hparts := parseFor_alongside hs hopen hopen' memory fuel
    cases hparse : p.parseFor fuel scanner memory goal with
    | error e =>
      rcases hparts with heq | ⟨_, _, _, _, _, _, _, _, hend⟩
      · refine .inl ⟨heq.trans hparse, ?_⟩
        intro o h
        cases h
      · rw [hparse] at hend
        cases hend
    | ok o =>
      obtain ⟨start, hread⟩ := Configuration.exists_readToken
        (c := .initial stream memory) (openFor_spec hopen).1
      have hrun := hparse
      rw [parseFor_of_open hopen hread] at hrun
      rcases outcome_of_disabled hoff hread hrun with hfree | ⟨token, told, hend⟩
      · rcases hparts with heq | ⟨_, _, reason, token, c, _, _, _, hend⟩
        · refine .inl ⟨heq.trans hparse, ?_⟩
          intro o' h
          cases h
          exact hfree
        · rw [hparse] at hend
          cases hend
          have hlast : Notice.syntaxError token ∈ (c.reported token).notices.toList := by
            simp [Configuration.reported, Configuration.notify]
          exact absurd (hfree _ hlast) (by simp [Notice.isSyntaxError])
      · exact .inr ⟨o, token, told, rfl, hend.1, hend.2.1, hend.2.2,
          fun fuel' o' => notices_prefix hs hopen hopen' hparse⟩

/-- A larger budget only extends a parse: what is told goes on from what is told with the smaller
one, and the parse is one and the same unless the smaller budget ends it.

In the same way recovery extends a parse that does not recover, whatever the windows of both and
the budget are, if both have a buffer. Without a syntax error they are one and the same parse. At
the first syntax error the one that does not recover ends, and until then they differ at most in
the room that their buffers have. A parser whose buffer cannot be had has no parse at all. -/
theorem larger_budget_extends_parses :
    (∀ (p : Parser σ V) (m : Nat), p.settings.maxErrors ≤ m →
      ∀ scanner memory goal, p.Outlasts (p.withBudget m) scanner memory goal) ∧
    (∀ (p : Parser σ V) (s : Settings), p.settings.recovery = false → s.recovery = true →
      s.trace = p.settings.trace → p.Openable → (p.withSettings s).Openable →
      ∀ scanner memory goal, p.RecoversFrom (p.withSettings s) scanner memory goal) ∧
    ∀ p : Parser σ V, ¬p.Openable → ∀ fuel scanner memory goal,
      p.parseFor fuel scanner memory goal =
        .error (.breach (TokenStream.openingFault p.settings.window)) := by
  refine ⟨?_, ?_, ?_⟩
  · intro p m h scanner memory goal
    exact outlasts_withBudget h scanner memory goal
  · intro p s hoff hon htrace hopenable hopenable' scanner memory goal
    obtain ⟨stream, hopen⟩ := exists_openFor hopenable scanner goal
    obtain ⟨stream', hopen'⟩ := exists_openFor hopenable' scanner goal
    exact recoversFrom_withSettings hoff hon htrace hopen hopen' memory
  · intro p hopenable fuel scanner memory goal
    exact parseFor_of_not_openable hopenable fuel scanner memory goal

/-- A parser for a letter that does not recover, and looks only one token ahead. -/
def strictLetter : Parser Unit Unit :=
  oneLetter.withSettings ⟨false, 0, 1, false⟩

/-- A second letter is one error too many without a budget, and the parse without recovery ends
there, too. With a budget the letter is removed, and the parse accepts. -/
theorem larger_budget_extends_parses_oneLetter :
    (oneLetter.withBudget 0).Outlasts ((oneLetter.withBudget 0).withBudget 1)
      (.ofTokens [letter, letter]) () none ∧
    strictLetter.RecoversFrom (strictLetter.withSettings .standard)
      (.ofTokens [letter, letter]) () none ∧
    ((oneLetter.withBudget 0).parseFor 10 (.ofTokens [letter, letter]) () none).toOption.any
      (fun o => o.notices.toList == [.syntaxError letter] && match o.result with
        | .error e => e == .unrecoverable .tooManyErrors .zero
        | .ok _ => false) = true ∧
    (strictLetter.parseFor 10 (.ofTokens [letter, letter]) () none).toOption.any
      (fun o => o.notices.toList == [.syntaxError letter] && match o.result with
        | .error e => e == .unrecoverable .recoveryDisabled .zero
        | .ok _ => false) = true ∧
    ((oneLetter.withBudget 1).parseFor 10 (.ofTokens [letter, letter]) () none).toOption.any
      (fun o => o.notices.toList == [.syntaxError letter, .removed letter] && match o.result with
        | .error _ => false
        | .ok _ => true) = true := by
  obtain ⟨hbudget, hrecovery, -⟩ := @larger_budget_extends_parses Unit Unit
  refine ⟨hbudget _ 1 (Nat.zero_le 1) _ _ _, ?_, by decide +kernel, by decide +kernel,
    by decide +kernel⟩
  exact hrecovery strictLetter .standard rfl rfl rfl (by decide +kernel) (by decide +kernel) _ _ _

/-- Recovery with a window that is too large for any buffer. -/
def boundless : Settings := { Settings.standard with window := 2 ^ 64 - 1 }

/-- A letter without an error is accepted by the parser that does not recover, and with recovery
and such a window there is no parse of it. So neither is the first parse part of the second, nor
are they the same. -/
theorem recovery_needs_a_buffer :
    strictLetter.settings.recovery = false ∧ boundless.recovery = true ∧
      boundless.trace = strictLetter.settings.trace ∧
      (strictLetter.parse 10 (.ofTokens [letter]) ()).toOption.any
        (fun o => o.notices.toList == [] && match o.result with
          | .error _ => false
          | .ok _ => true) = true ∧
      (strictLetter.withSettings boundless).parse 10 (.ofTokens [letter]) () =
        .error (.breach .addOverflow) ∧
      ¬strictLetter.RecoversFrom (strictLetter.withSettings boundless) (.ofTokens [letter]) ()
        none := by
  have hopenable : ¬(strictLetter.withSettings boundless).Openable := by decide +kernel
  have hparse : (strictLetter.withSettings boundless).parse 10 (.ofTokens [letter]) () =
      .error (.breach .addOverflow) :=
    parseFor_of_not_openable hopenable 10 (.ofTokens [letter]) () none
  have haccepts : (strictLetter.parse 10 (.ofTokens [letter]) ()).toOption.any
      (fun o => o.notices.toList == [] && match o.result with
        | .error _ => false
        | .ok _ => true) = true := by decide +kernel
  refine ⟨rfl, rfl, rfl, haccepts, hparse, ?_⟩
  intro hrecovers
  obtain ⟨o, ho, haccepted⟩ := exists_ok_of_any haccepts
  rcases hrecovers.outcome 10 with ⟨heq, -⟩ | ⟨o', token, told, ho', hresult, -⟩
  · have hsame : (strictLetter.withSettings boundless).parse 10 (.ofTokens [letter]) () =
        strictLetter.parse 10 (.ofTokens [letter]) () := heq
    rw [hparse, ho] at hsame
    cases hsame
  · have hsame : strictLetter.parse 10 (.ofTokens [letter]) () = .ok o' := ho'
    rw [ho] at hsame
    cases hsame
    rw [hresult, Bool.and_false] at haccepted
    cases haccepted

end Parser

end ShiftReduce
