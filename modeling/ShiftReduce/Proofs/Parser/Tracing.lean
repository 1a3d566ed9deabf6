import ShiftReduce.Proofs.Parser.Twins
import ShiftReduce.Proofs.Recovery.Tracing

/-!
# Tracing is transparent

A parser that traces its moves does what it does without that, and tells the same besides the
traces. What it traces is complete: the moves can be made again on a bare stack of states.

* `untraced_outcome`: the outcome of a parse without traces is the one with traces, without these.
* `step_replays` and `replays_of_reaches`: the moves traced so far lead to the states that are on
  the stack.
* `tracing_is_transparent`: both together.
-/

namespace ShiftReduce

open ShiftReduce.Configuration Relation

variable {σ V : Type} {p : Parser σ V} {fuel : Nat} {token : Symbol V}
  {c c' : Configuration σ V} {q q' : Progress σ V} {scanner : Scanner V}
  {goal : Option SymbolId} {memory : σ}

/-- The same outcome without the traces. -/
def Outcome.untraced (o : Outcome σ V) : Outcome σ V :=
  { o with notices := (Notice.diagnostics o.notices.toList).toArray }

theorem Outcome.Twins.eq_untraced {o o' : Outcome σ V} (h : o.Twins true o') : o' = o.untraced := by
  obtain ⟨hnotices⟩ := h
  have hkept : o.notices.toList.filter (Notice.audible true) =
      Notice.diagnostics o.notices.toList := rfl
  rw [untraced, ← hkept, ← hnotices]

namespace Parser

def withTrace (p : Parser σ V) (trace : Bool) : Parser σ V :=
  p.withSettings { p.settings with trace }

/-! ## The outcome -/

/-- A parser and the muted one start alike, whatever they are to parse. -/
theorem start_muted (p : Parser σ V) (mute : Bool) (scanner : Scanner V) (goal : Option SymbolId)
    (memory : σ) : Agree (Progress.Twins mute) (p.start scanner goal memory)
      ((p.muted mute).start scanner goal memory) := by
  have hopen : (p.muted mute).openFor scanner goal = p.openFor scanner goal := by
    cases goal <;> rfl
  rw [start, start, hopen]
  refine Agree.bind_right (fun stream => ?_) _
  have hinitial : (Configuration.initial stream memory).Twins mute (.initial stream memory) :=
    .intro (.refl stream) rfl
  exact (Twins.lockstep p mute).readToken hinitial

theorem untraced_outcome (p : Parser σ V) (fuel : Nat) (scanner : Scanner V)
    (goal : Option SymbolId) (memory : σ) :
    (p.withTrace false).parseFor fuel scanner memory goal =
      Outcome.untraced <$> (p.withTrace true).parseFor fuel scanner memory goal := by
  have htwins := parseFor_twins (start_muted (p.withTrace true) true scanner goal memory) fuel
  rw [show (p.withTrace true).muted true = p.withTrace false from rfl] at htwins
  generalize (p.withTrace true).parseFor fuel scanner memory goal = x at htwins
  generalize (p.withTrace false).parseFor fuel scanner memory goal = x' at htwins
  cases htwins with
  | error e => rfl
  | ok h => rw [h.eq_untraced, map_ok]

/-! ## The moves -/

/-- Where a parse stands whose moves can be replayed, unless it has failed. -/
inductive Replaying (p : Parser σ V) : Progress σ V → Prop
  | running {token : Symbol V} {c : Configuration σ V} : c.Replays p →
      Replaying p (.running token c)
  | accepted {value : Option V} {c : Configuration σ V} : c.Replays p →
      Replaying p (.finished (.ok value) c)
  | failed {e : ParseError} {c : Configuration σ V} : Replaying p (.finished (.error e) c)

theorem readToken_replays (hc : c.Replays p) (h : c.readToken = .ok q) : p.Replaying q := by
  obtain ⟨d, -, h⟩ := bind_eq_ok.mp h
  have hread : ({ c with stream := d.stream } : Configuration σ V).Replays p := hc
  have hstill : Still { c with stream := d.stream }
      (({ c with stream := d.stream } : Configuration σ V).notifyLexical d.lexical) :=
    .of_adds (.notifyLexical (fun _ => rfl) _ _) rfl
  dsimp only at h
  split at h
  · cases h
    exact .running (hstill.replays hread)
  · cases h
    exact .failed

section

variable (htrace : p.settings.trace = true)

include htrace

theorem shifted_replays (hc : c.Replays p) (target : StateId) (token : Symbol V) :
    (p.shifted target token c).Replays p := by
  have hmoves : (p.shifted target token c).moves = c.moves ++ [.shift target token.id] :=
    moves_trace htrace c _
  refine hc.move hmoves ?_
  rw [shifted, push_stack, ParseStack.column_push, count_stack, trace_stack]
  rfl

/-- The right-hand side has been taken off, and the goto of the left-hand side leads on. -/
theorem reduce_replays {rule : RuleId} (hc : c.Replays p) (h : p.reduce rule token c = .ok q) :
    p.Replaying q := by
  obtain ⟨info, memory, base, x, -, hlength, hbase, hx, h⟩ := reduce_follows h
  have hmoves : (p.reduced rule info memory c).moves =
      c.moves ++ [.reduce rule info.lhs info.length] := moves_trace htrace _ _
  -- What is left of the stack, from which the goto leads on.
  obtain ⟨rest, hkept⟩ := List.head?_eq_some_iff.mp (ParseStack.topState_eq_ok.mp hbase)
  have hdropped : c.stack.column.drop info.length = base :: rest :=
    (column_reduced hlength memory).symm.trans hkept
  obtain ⟨found, hgoto, h⟩ := bind_eq_ok.mp h
  rw [hx] at hgoto
  cases found with
  | shift target =>
    cases h
    have hpushed : ((p.reduced rule info memory c).push target x).moves =
        c.moves ++ [.reduce rule info.lhs info.length] := hmoves
    refine .running (hc.move hpushed ?_)
    rw [push_stack, ParseStack.column_push, hkept]
    simp only [TraceEvent.replay, hdropped, PackedTables.followGoto, hgoto]
  | accept =>
    cases h
    have hreduced : (p.reduced rule info memory c).Replays p := by
      refine hc.move hmoves ?_
      rw [hkept]
      simp only [TraceEvent.replay, hdropped, PackedTables.followGoto, hgoto]
    refine .accepted (hreduced.move (moves_trace htrace _ .accept) ?_)
    rw [trace_stack]
    rfl
  | reduce other => cases h
  | error => cases h

theorem step_replays (hc : c.Replays p) (h : p.step fuel token c = .ok q) : p.Replaying q := by
  obtain ⟨entry, action, -, -, h⟩ := exists_act h
  cases action with
  | shift target =>
    exact readToken_replays (shifted_replays htrace hc target token) (liftM_eq_ok.mp h)
  | reduce rule => exact reduce_replays htrace hc (liftM_eq_ok.mp h)
  | accept =>
    cases h
    refine .accepted (hc.move (moves_trace htrace c _) ?_)
    rw [trace_stack]
    rfl
  | error =>
    have hcounted : (c.count fun stats =>
        { stats with syntaxErrors := stats.syntaxErrors + 1 }).Replays p := hc
    have hreported : (c.reported token).Replays p := (Still.notify rfl _).replays hcounted
    rcases repair_cases h with ⟨reason, position, rfl⟩ | ⟨e, c', -, rfl⟩ | ⟨c', -, hrecover, hread⟩
    · exact .failed
    · exact .failed
    · have hrecovered := Recovery.recover_replays htrace hreported hrecover
      have hrepaired : (c'.count fun stats =>
          { stats with errorsRecovered := stats.errorsRecovered + 1 }).Replays p := hrecovered
      exact readToken_replays hrepaired hread

/-- Wherever a parse stands, its moves can be replayed, unless it has failed. -/
theorem replays_of_reaches (hstart : p.start scanner goal memory = .ok q)
    (hreach : ReflTransGen p.Step q q') : p.Replaying q' := by
  induction hreach with
  | refl =>
    obtain ⟨stream, -, hread⟩ := bind_eq_ok.mp hstart
    have hinitial : (Configuration.initial stream memory).Replays p := rfl
    exact readToken_replays hinitial hread
  | tail _ hstep ih =>
    obtain ⟨hstep⟩ := hstep
    cases ih with
    | running hc => exact step_replays htrace hc hstep

end

/-! ## Both together -/

/-- A parse with its moves traced and the same parse without that have the same result and
counters, and the actions have done the same; what the second one tells is what the first one
tells without the traces. The two come to the heads of their loops together. Replayed on a bare
stack, the moves that the first one has traced lead to the states that it has on its stack, at
each head of its loop and at its end if it accepts. -/
theorem tracing_is_transparent (p : Parser σ V) (scanner : Scanner V) (goal : Option SymbolId)
    (memory : σ) :
    (∀ fuel, (p.withTrace false).parseFor fuel scanner memory goal =
        Outcome.untraced <$> (p.withTrace true).parseFor fuel scanner memory goal) ∧
      (∀ token c, (p.withTrace true).Heads scanner goal memory token c →
        ∃ c', (p.withTrace false).Heads scanner goal memory token c' ∧ c.Twins true c') ∧
      (∀ token c', (p.withTrace false).Heads scanner goal memory token c' →
        ∃ c, (p.withTrace true).Heads scanner goal memory token c ∧ c.Twins true c') ∧
      (∀ token c, (p.withTrace true).Heads scanner goal memory token c →
        TraceEvent.replayAll p.tables (Notice.traces c.notices.toList) = some c.stack.column) ∧
      ∀ start value c, (p.withTrace true).start scanner goal memory = .ok start →
        ReflTransGen (p.withTrace true).Step start (.finished (.ok value) c) →
        TraceEvent.replayAll p.tables (Notice.traces c.notices.toList) =
          some c.stack.column := by
  have hstart := start_muted (p.withTrace true) true scanner goal memory
  refine ⟨fun fuel => untraced_outcome p fuel scanner goal memory, ?_, ?_, ?_, ?_⟩
  · exact fun token c => heads_twins hstart
  · exact fun token c' => heads_of_twins hstart
  · rintro token c ⟨hread, hreach⟩
    cases replays_of_reaches rfl hread hreach with
    | running hc => exact hc
  · intro start value c hread hreach
    cases replays_of_reaches rfl hread hreach with
    | accepted hc => exact hc

/-- Behind a letter that has been shifted another one is deleted. The two moves lead to the stack
on which the end of the input is met then; without traces, the repair is told alone. -/
theorem tracing_is_transparent_oneLetter : ∃ c c',
    (oneLetter.withTrace true).Heads (.ofTokens [letter, letter]) none () (.endOfInput .zero) c ∧
      (oneLetter.withTrace false).Heads (.ofTokens [letter, letter]) none ()
        (.endOfInput .zero) c' ∧
      Notice.traces c.notices.toList = [.shift 1 1, .recovery .deletion 1 true 0 1] ∧
      c.stack.column = [1, startState] ∧
      TraceEvent.replayAll oneLetterTables [.shift 1 1, .recovery .deletion 1 true 0 1] =
        some c.stack.column ∧
      c.Twins true c' := by
  obtain ⟨c, hhead, hstep⟩ : ∃ c,
      (oneLetter.withTrace true).Heads (.ofTokens [letter, letter]) none () letter c ∧
        ((oneLetter.withTrace true).step 10 letter c).toOption.any (fun q => decide (
          q.token? = some (.endOfInput .zero) ∧
            Notice.traces q.configuration.notices.toList =
              [.shift 1 1, .recovery .deletion 1 true 0 1] ∧
            q.configuration.stack.column = [1, startState])) = true :=
    ⟨_, .intro rfl (.single (@Step.intro _ _ _ 10 _ _ _ rfl)), by decide +kernel⟩
  obtain ⟨q, hq, hprops⟩ := exists_ok_of_any hstep
  obtain ⟨htoken, htraces, hcolumn⟩ := of_decide_eq_true hprops
  rw [Progress.eq_running htoken] at hq
  have hnext := hhead.step hq
  obtain ⟨-, htogether, -, hreplays, -⟩ :=
    tracing_is_transparent oneLetter (.ofTokens [letter, letter]) none ()
  obtain ⟨c', hother, hc⟩ := htogether _ _ hnext
  have hreplay := hreplays _ _ hnext
  rw [htraces] at hreplay
  exact ⟨_, c', hnext, hother, htraces, hcolumn, hreplay, hc⟩

end Parser

end ShiftReduce
