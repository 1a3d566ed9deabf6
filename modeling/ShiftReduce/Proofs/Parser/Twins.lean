import ShiftReduce.Proofs.Parser.Budget

/-!
# Parses that cannot be told apart

Two configurations are twins if they have the same stack, counters and memory, streams that cannot
be told apart, and have told the same. Of the notices only those count that are audible: the traces
of moves can be muted, so a parser that traces can be compared with the same one without traces.

A parser and the muted one make the same steps, from twins to twins. So whole runs end alike, or
both break the same contract, or both run out of the same fuel.

* `Parser.muted` and `Notice.audible`: a parser with its traces muted, and what it still tells.
* `Configuration.Twins` and `Configuration.Twins.lockstep`: twins, to which both do the same.
* `Parser.step_twins`: one step.
* `Parser.run_twins` and `Parser.reaches_twins`: a run to its end, and what it comes to on its way.
* `Parser.Heads`: where a parse stands at the heads of its loop.
* `Parser.parseFor_twins`, `Parser.heads_twins` and `Parser.heads_of_twins`: whole parses that
  start as twins.
-/

namespace ShiftReduce

open Relation

variable {σ V : Type} {mute : Bool} {p : Parser σ V} {fuel : Nat} {token : Symbol V}
  {c c' : Configuration σ V} {q q' r : Progress σ V}

/-- The same parser, of which the traces are muted or not. -/
def Parser.muted (p : Parser σ V) (mute : Bool) : Parser σ V :=
  p.withSettings { p.settings with trace := p.settings.trace && !mute }

/-- Whether a notice is told also if traces are muted. -/
def Notice.audible (mute : Bool) (n : Notice V) : Bool := !(mute && n.isTrace)

theorem Notice.audible_of_report {n : Notice V} (h : n.isTrace = false) (mute : Bool) :
    n.audible mute = true := by
  simp [audible, h]

/-- Configurations that are the same but for the places in the ring of the stream and for the
traces that are muted in the second one. -/
inductive Configuration.Twins (mute : Bool) (c : Configuration σ V) : Configuration σ V → Prop
  | intro {stream : TokenStream V} {notices : Array (Notice V)} : c.stream.Twins stream →
      notices.toList = c.notices.toList.filter (Notice.audible mute) →
      Twins mute c { c with stream, notices }

theorem Parser.muted_false (p : Parser σ V) : p.muted false = p := by
  simp [muted, withSettings]

theorem Notice.filter_audible_false (ns : List (Notice V)) :
    ns.filter (Notice.audible false) = ns :=
  List.filter_eq_self.mpr fun _ _ => rfl

namespace Configuration.Twins

theorem stack_eq (h : c.Twins mute c') : c'.stack = c.stack := by
  obtain ⟨-, -⟩ := h
  rfl

theorem stats_eq (h : c.Twins mute c') : c'.stats = c.stats := by
  obtain ⟨-, -⟩ := h
  rfl

/-- Both tell the same reports. -/
theorem told (h : c.Twins mute c') {more : List (Notice V)}
    (hmore : ∀ n ∈ more, n.isTrace = false) :
    Configuration.Twins mute { c with notices := c.notices ++ more.toArray }
      { c' with notices := c'.notices ++ more.toArray } := by
  obtain ⟨hstream, hnotices⟩ := h
  refine .intro hstream ?_
  have hkept : more.filter (Notice.audible mute) = more :=
    List.filter_eq_self.mpr fun n hn => Notice.audible_of_report (hmore n hn) mute
  rw [Array.toList_append, Array.toList_append, List.filter_append, hkept, hnotices]

/-- The muted one does not trace what the other one may trace. -/
theorem trace (h : c.Twins mute c') (p : Parser σ V) (event : TraceEvent) :
    (c.trace p event).Twins mute (c'.trace (p.muted mute) event) := by
  obtain ⟨hstream, hnotices⟩ := h
  have hmuted : (p.muted mute).settings.trace = (p.settings.trace && !mute) := rfl
  unfold Configuration.trace
  rw [hmuted]
  cases p.settings.trace with
  | false => exact .intro hstream hnotices
  | true =>
    cases mute with
    | true =>
      refine .intro hstream (hnotices.trans ?_)
      simp [Configuration.notify, Notice.audible, Notice.isTrace, Notice.traced?]
    | false =>
      refine .intro hstream ?_
      simpa [Configuration.notify, Notice.audible] using hnotices

/-- A parser and the muted one do the same to twins. -/
theorem lockstep (p : Parser σ V) (mute : Bool) :
    RecoveryLockstep p (p.muted mute) (Configuration.Twins mute) TokenStream.Twins where
  tables_eq := rfl
  actions_eq := rfl
  stack_eq := stack_eq
  memory_eq h := by
    obtain ⟨-, -⟩ := h
    rfl
  of_stack h stack := by
    obtain ⟨hstream, hnotices⟩ := h
    exact .intro hstream hnotices
  of_memory h memory := by
    obtain ⟨hstream, hnotices⟩ := h
    exact .intro hstream hnotices
  count h f := by
    obtain ⟨hstream, hnotices⟩ := h
    exact .intro hstream hnotices
  told := fun h => h.told
  trace h event := h.trace p event
  next h := by
    obtain ⟨hstream, hnotices⟩ := h
    refine hstream.next.mono ?_
    rintro d - ⟨hnext⟩
    exact ⟨rfl, rfl, .intro hnext hnotices⟩
  stream h := by
    obtain ⟨hstream, -⟩ := h
    exact hstream
  of_stream h hstream := by
    obtain ⟨-, hnotices⟩ := h
    exact .intro hstream hnotices
  interchangeable := TokenStream.interchangeable_twins

end Configuration.Twins

/-- Where twins stand between two moves. -/
abbrev Progress.Twins (mute : Bool) : Progress σ V → Progress σ V → Prop :=
  Progress.Related (Configuration.Twins mute)

/-- Outcomes that are the same but for the traces that are muted in the second one. -/
inductive Outcome.Twins (mute : Bool) (o : Outcome σ V) : Outcome σ V → Prop
  | intro {notices : Array (Notice V)} :
      notices.toList = o.notices.toList.filter (Notice.audible mute) →
      Twins mute o { o with notices }

namespace Parser

/-! ## Steps -/

theorem repair_twins (h : c.Twins mute c') (p : Parser σ V) (fuel : Nat) (token : Symbol V) :
    Agree (Progress.Twins mute) (p.repair fuel token c)
      ((p.muted mute).repair fuel token c') := by
  have l := Configuration.Twins.lockstep p mute
  have hreported := l.reported h token
  cases hrecovery : p.settings.recovery with
  | false =>
    rw [repair_of_disabled hrecovery, @repair_of_disabled _ _ (p.muted mute) hrecovery]
    exact .ok (.finished hreported)
  | true =>
    have herrors := congrArg Stats.syntaxErrors hreported.stats_eq
    by_cases hfew : (c.reported token).stats.syntaxErrors ≤ p.settings.maxErrors
    · rw [repair_of_few hrecovery hfew,
        @repair_of_few _ _ (p.muted mute) _ _ hrecovery (herrors ▸ hfew)]
      refine (l.recover hreported fuel token).bind fun r r' hr => ?_
      cases hr with
      | repaired hc => exact (l.readToken (l.count hc _)).toFueled
      | aborted hc => exact .ok (.finished hc)
    · have hmany := Nat.not_le.mp hfew
      rw [repair_of_many hrecovery hmany,
        @repair_of_many _ _ (p.muted mute) _ _ hrecovery (herrors ▸ hmany)]
      exact .ok (.finished hreported)

/-- A parser and the muted one make the same step. -/
theorem step_twins (h : c.Twins mute c') (p : Parser σ V) (fuel : Nat) (token : Symbol V) :
    Agree (Progress.Twins mute) (p.step fuel token c) ((p.muted mute).step fuel token c') :=
  (Configuration.Twins.lockstep p mute).step h fuel token fun _ _ _ => repair_twins h p fuel token

/-! ## Runs -/

theorem run_twins (h : q.Twins mute q') (p : Parser σ V) (fuel : Nat) :
    Agree (Outcome.Twins mute) (p.run fuel q) ((p.muted mute).run fuel q') := by
  induction fuel generalizing q q' with
  | zero =>
    cases h with
    | running _ => exact .error _
    | finished hc =>
      obtain ⟨-, hnotices⟩ := hc
      exact .ok (.intro hnotices)
  | succ fuel ih =>
    cases h with
    | running hc => exact (step_twins hc p fuel _).bind fun _ _ => ih
    | finished hc =>
      obtain ⟨-, hnotices⟩ := hc
      exact .ok (.intro hnotices)

/-- Two parsers whose steps agree come to agreeing places. -/
theorem reaches_of_agree {p' : Parser σ V} {R : Progress σ V → Progress σ V → Prop}
    (hagree : ∀ token c q', R (.running token c) q' →
      ∃ c', q' = .running token c' ∧ ∀ fuel, Agree R (p.step fuel token c) (p'.step fuel token c'))
    (h : R q q') (hreach : ReflTransGen p.Step q r) :
    ∃ r', R r r' ∧ ReflTransGen p'.Step q' r' := by
  induction hreach with
  | refl => exact ⟨q', h, .refl⟩
  | tail _ hstep ih =>
    obtain ⟨hstep⟩ := hstep
    obtain ⟨r', hr, hreach'⟩ := ih
    obtain ⟨c', rfl, hsteps⟩ := hagree _ _ _ hr
    obtain ⟨q', hstep', hq⟩ := (hsteps _).exists_ok hstep
    exact ⟨q', hq, hreach'.tail (.intro hstep')⟩

/-- Wherever the one run comes, the other one comes as well. -/
theorem reaches_twins (h : q.Twins mute q') (hreach : ReflTransGen p.Step q r) :
    ∃ r', r.Twins mute r' ∧ ReflTransGen (p.muted mute).Step q' r' := by
  refine reaches_of_agree (fun token c q' hq => ?_) h hreach
  cases hq with
  | running hc => exact ⟨_, rfl, fun fuel => step_twins hc p fuel token⟩

/-- The other way round. -/
theorem reaches_of_twins (h : q.Twins mute q') (hreach : ReflTransGen (p.muted mute).Step q' r) :
    ∃ r', r'.Twins mute r ∧ ReflTransGen p.Step q r' := by
  refine reaches_of_agree (R := fun q' q => q.Twins mute q') (fun token c q' hq => ?_) h hreach
  cases hq with
  | running hc => exact ⟨_, rfl, fun fuel => (step_twins hc p fuel token).symm⟩

/-! ## Parses -/

/-- A parse comes to a head of its loop, with a current token. -/
inductive Heads (p : Parser σ V) (scanner : Scanner V) (goal : Option SymbolId) (memory : σ) :
    Symbol V → Configuration σ V → Prop
  | intro {q : Progress σ V} {token : Symbol V} {c : Configuration σ V} :
      p.start scanner goal memory = .ok q → ReflTransGen p.Step q (.running token c) →
      Heads p scanner goal memory token c

/-- From head to head of the loop. -/
theorem Heads.step {scanner : Scanner V} {goal : Option SymbolId} {memory : σ}
    {token' : Symbol V} (h : p.Heads scanner goal memory token c)
    (hstep : p.step fuel token c = .ok (.running token' c')) :
    p.Heads scanner goal memory token' c' := by
  obtain ⟨hstart, hreach⟩ := h
  exact .intro hstart (hreach.tail (.intro hstep))

section

variable {scanner scanner' : Scanner V} {goal goal' : Option SymbolId} {memory : σ}
  (h : Agree (Progress.Twins mute) (p.start scanner goal memory)
    ((p.muted mute).start scanner' goal' memory))

include h

/-- Parses that start as twins end alike. -/
theorem parseFor_twins (fuel : Nat) :
    Agree (Outcome.Twins mute) (p.parseFor fuel scanner memory goal)
      ((p.muted mute).parseFor fuel scanner' memory goal') := by
  rw [parseFor_eq, parseFor_eq]
  exact h.toFueled.bind fun q q' hq => run_twins hq p fuel

/-- Parses that start as twins come to the heads of their loops together. -/
theorem heads_twins : p.Heads scanner goal memory token c →
    ∃ c', (p.muted mute).Heads scanner' goal' memory token c' ∧ c.Twins mute c' := by
  rintro ⟨hstart, hreach⟩
  obtain ⟨q', hstart', hq⟩ := h.exists_ok hstart
  obtain ⟨r, hr, hreach'⟩ := reaches_twins hq hreach
  cases hr with
  | running hc => exact ⟨_, .intro hstart' hreach', hc⟩

theorem heads_of_twins : (p.muted mute).Heads scanner' goal' memory token c' →
    ∃ c, p.Heads scanner goal memory token c ∧ c.Twins mute c' := by
  rintro ⟨hstart', hreach'⟩
  obtain ⟨q, hstart, hq⟩ := h.symm.exists_ok hstart'
  obtain ⟨r, hr, hreach⟩ := reaches_of_twins hq hreach'
  cases hr with
  | running hc => exact ⟨_, .intro hstart hreach, hc⟩

end

end Parser

end ShiftReduce
