import ShiftReduce.Proofs.Parser.Acts
import ShiftReduce.Proofs.Parser.Conservation
import ShiftReduce.Proofs.Parser.Log

/-!
# Errors and repairs are told in pairs

Whatever a parse goes through, its log can be read without knowing the parser: each syntax error
is followed by its repair, and only the last one can be without. What is counted is what is told.

* `Mends`: what the repair of a token has done.
* `Account`: what has been told and counted while a parse goes on.
* `Account.moved`, `Account.mended` and `Account.unmended`: what moves, repairs and the end of a
  parse at an error add to it.
* `protocol_is_kept`: the log of a parse that has returned.
-/

namespace ShiftReduce

open ShiftReduce.Configuration Relation

variable {σ V : Type}

/-! ## What repairs do -/

/-- What a repair that is reported for a token has done, in a state that refuses the token. -/
inductive Mends (t : PackedTables) (s : StateId) (token : Symbol V) : Notice V → Prop
  | removed : Mends t s token (.removed token)
  | replaced {id : SymbolId} : id ≠ token.id → Mends t s token (.replaced { token with id })
  | inserted {x : Symbol V} {action : Action} : x.value = none → x.id ≠ eof →
      x.id.toNat < t.terminalCount → t.action s x.id = .ok action → action ≠ .error →
      Mends t s token (.inserted x)
  | phraseRemoved (phrase : Symbol V) : Mends t s token (.phraseRemoved phrase)

theorem Mends.isRepair {t : PackedTables} {s : StateId} {token : Symbol V} {n : Notice V}
    (h : Mends t s token n) : n.isRepair = true := by
  cases h <;> rfl

/-- A repair that is prescribed mends the token. -/
theorem Prescribed.mends {t : PackedTables} {w : Nat} {i : Impasse V} {P : Proposal V}
    (h : Prescribed t w i (.repaired P)) (hw : 1 ≤ w)
    (herror : t.action i.top.state i.token.id = .ok .error) :
    Mends t i.top.state i.token P.notice := by
  have hfeasible := h.feasible
  obtain ⟨w, rfl⟩ := Nat.exists_eq_add_of_le' hw
  cases h with
  | edit hP =>
    have hmem := hP.mem
    simp only [Impasse.edits, List.mem_append, List.mem_map, List.mem_singleton] at hmem
    rcases hmem with (⟨id, hid, rfl⟩ | ⟨id, hid, rfl⟩) | rfl
    · obtain ⟨heof, hterminal, hvalid⟩ := mem_validTerminals hid
      obtain ⟨rs, final, hrun⟩ := hfeasible
      obtain ⟨r, -, -, hr, -⟩ := hrun.first
      obtain ⟨action, haction⟩ := hr.exists_action
      refine .inserted rfl heof hterminal haction ?_
      rintro rfl
      exact hvalid haction
    · refine .replaced ?_
      rintro rfl
      exact (mem_validTerminals hid).2.2 herror
    · exact .removed
  | phrase _ _ _ _ hwidens =>
    cases hwidens with
    | repaired _ _ => exact .phraseRemoved _

namespace Configuration

variable {p : Parser σ V} {c : Configuration σ V} {q : Progress σ V}

/-- The repairs that have been told are in the log. -/
theorem repairs_eq_log (c : Configuration σ V) : c.repairs = c.log.filter Notice.isRepair := by
  rw [repairs, log, Notice.withoutLexical, List.filter_filter]
  apply List.filter_congr
  intro n _
  cases hn : n.isRepair with
  | true => rw [Notice.lexical?_of_isRepair hn]; rfl
  | false => rfl

theorem log_reported (token : Symbol V) (c : Configuration σ V) :
    (c.reported token).log = c.log ++ [.syntaxError token] :=
  log_notify rfl _

theorem log_readToken (h : c.readToken = .ok q) : q.configuration.log = c.log := by
  obtain ⟨d, -, h⟩ := bind_eq_ok.mp h
  dsimp only at h
  split at h
  · cases h
    exact log_notifyLexical _ _
  · cases h
    exact log_notifyLexical _ _

end Configuration

namespace Parser

variable {p : Parser σ V} {scanner : Scanner V} {goal : Option SymbolId} {fuel : Nat}
  {start q q' : Progress σ V} {c c' : Configuration σ V} {token : Symbol V}
  {pairs : List (Symbol V × Notice V)} {result : Except ParseError (Option V)}
  {event : TraceEvent} {rule : RuleId}

/-! ## The account of a parse -/

/-- An error was repaired when some others had been: the top state of a configuration of the run
refused the token, and the repair has mended it. -/
def Mended (p : Parser σ V) (start : Progress σ V) (done : List (Symbol V × Notice V))
    (token : Symbol V) (n : Notice V) : Prop :=
  ∃ c entry, ReflTransGen p.Step start (.running token c) ∧
    Notice.diagnostics c.log = toldPairs done ∧ c.stack.top = .ok entry ∧
    p.tables.action entry.state token.id = .ok .error ∧ Mends p.tables entry.state token n

/-- What is counted is traced. -/
structure Tally (c : Configuration σ V) : Prop where
  tokensShifted_eq : c.stats.tokensShifted = (Notice.traces c.log).countP TraceEvent.isShift
  reductions_eq : c.stats.reductions = (Notice.traces c.log).countP TraceEvent.isReduction
  errorsRecovered_eq : c.stats.errorsRecovered = (Notice.traces c.log).countP TraceEvent.isSuccess

/-- What has been told and counted while a parse goes on: errors, each with its repair. -/
structure Account (p : Parser σ V) (start : Progress σ V) (pairs : List (Symbol V × Notice V))
    (c : Configuration σ V) : Prop where
  reports : Notice.diagnostics c.log = toldPairs pairs
  mended : ∀ done token n later, pairs = done ++ (token, n) :: later →
    p.Mended start done token n
  syntaxErrors : c.stats.syntaxErrors = pairs.length
  errorsRecovered : c.stats.errorsRecovered = pairs.length
  bounded : pairs.length ≤ p.settings.maxErrors
  tally : p.settings.trace = true → Tally c
  orderly : p.settings.trace = true → Orderly c.log

/-- A fault has ended the parse that a simulation met while an error was being repaired. -/
def FaultInRecovery (p : Parser σ V) (start : Progress σ V) (fault : ScanError)
    (c : Configuration σ V) : Prop :=
  ∃ fuel token c₁, ReflTransGen p.Step start (.running token c₁) ∧
    Recovery.recover p fuel token (c₁.reported token) = .ok (.aborted (.scanner fault) c)

/-- What a parse has told and counted that has come to an end: errors, each with its repair, and
perhaps a last one without. -/
structure Protocol (p : Parser σ V) (start : Progress σ V) (pairs : List (Symbol V × Notice V))
    (last : Option (Symbol V)) (result : Except ParseError (Option V)) (c : Configuration σ V) :
    Prop where
  reports : Notice.diagnostics c.log = toldPairs pairs ++ (last.map Notice.syntaxError).toList
  repairs : ∀ pair ∈ pairs, pair.2.isRepair = true
  mended : ∀ done token n later, pairs = done ++ (token, n) :: later →
    p.Mended start done token n
  errorsRecovered : c.stats.errorsRecovered = pairs.length
  syntaxErrors : c.stats.syntaxErrors = c.log.countP Notice.isSyntaxError
  bounded : c.stats.syntaxErrors ≤ p.settings.maxErrors + 1
  accepted : ∀ value, result = .ok value → last = none
  givenUp : ∀ reason position, result = .error (.unrecoverable reason position) →
    last.isSome = true
  fault : ∀ fault, result = .error (.scanner fault) →
    (last.isSome = true ↔ p.FaultInRecovery start fault c)
  tally : p.settings.trace = true → Tally c
  orderly : p.settings.trace = true → Orderly c.log

namespace Account

theorem repairs (h : p.Account start pairs c) : ∀ pair ∈ pairs, pair.2.isRepair = true := by
  rintro ⟨token, n⟩ hmem
  obtain ⟨done, later, hsplit⟩ := List.append_of_mem hmem
  obtain ⟨c₁, entry, -, -, -, -, hmends⟩ := h.mended done token n later hsplit
  exact hmends.isRepair

/-- The account is of the log and of the counters. -/
theorem of_eq (h : p.Account start pairs c) (hlog : c'.log = c.log) (hcounts : SameCounts c c') :
    p.Account start pairs c' := by
  obtain ⟨hreports, hmended, herrors, hrecovered, hbounded, htally, horderly⟩ := h
  refine ⟨hlog ▸ hreports, hmended, hcounts.syntaxErrors_eq ▸ herrors,
    hcounts.errorsRecovered_eq ▸ hrecovered, hbounded, ?_, hlog ▸ horderly⟩
  intro htrace
  obtain ⟨hshifted, hreductions, hsuccesses⟩ := htally htrace
  constructor <;> rw [hlog]
  · exact hcounts.tokensShifted_eq.trans hshifted
  · exact hcounts.reductions_eq.trans hreductions
  · exact hcounts.errorsRecovered_eq.trans hsuccesses

end Account

/-! ## Moves -/

/-- A move of the parser that is none of recovery: it is traced, and it is counted as what it
is. -/
structure Moves (p : Parser σ V) (event : TraceEvent) (c c' : Configuration σ V) : Prop where
  attempt?_eq : event.attempt? = none
  log_eq : c'.log = c.log ++ p.traced [event]
  tokensShifted_eq : c'.stats.tokensShifted =
    c.stats.tokensShifted + [event].countP TraceEvent.isShift
  reductions_eq : c'.stats.reductions =
    c.stats.reductions + [event].countP TraceEvent.isReduction
  syntaxErrors_eq : c'.stats.syntaxErrors = c.stats.syntaxErrors
  errorsRecovered_eq : c'.stats.errorsRecovered = c.stats.errorsRecovered

theorem moves_shifted (p : Parser σ V) (target : StateId) (token : Symbol V)
    (c : Configuration σ V) :
    p.Moves (.shift target token.id) c (p.shifted target token c) := by
  refine ⟨rfl, log_trace _ _ _, tokensShifted_shifted _ _ _ _, ?_, syntaxErrors_shifted _ _ _ _, ?_⟩
  · show (c.trace p (.shift target token.id)).stats.reductions = _
    rw [trace_stats]
    rfl
  · show (c.trace p (.shift target token.id)).stats.errorsRecovered = _
    rw [trace_stats]

theorem moves_reduced (p : Parser σ V) (rule : RuleId) (info : Rule) (memory : σ)
    (c : Configuration σ V) :
    p.Moves (.reduce rule info.lhs info.length) c (p.reduced rule info memory c) := by
  refine ⟨rfl, log_trace _ _ _, ?_, ?_, ?_, ?_⟩ <;> rw [reduced, trace_stats] <;> rfl

theorem moves_accepted (p : Parser σ V) (c : Configuration σ V) :
    p.Moves .accept c (c.trace p .accept) := by
  refine ⟨rfl, log_trace _ _ _, ?_, ?_, ?_, ?_⟩ <;> rw [trace_stats] <;> rfl

/-- A log that has grown is counted by its parts. -/
theorem Tally.grown {told : List (Notice V)} (h : Tally c) (hlog : c'.log = c.log ++ told)
    (hshifted : c'.stats.tokensShifted =
      c.stats.tokensShifted + (Notice.traces told).countP TraceEvent.isShift)
    (hreductions : c'.stats.reductions =
      c.stats.reductions + (Notice.traces told).countP TraceEvent.isReduction)
    (hsuccesses : c'.stats.errorsRecovered =
      c.stats.errorsRecovered + (Notice.traces told).countP TraceEvent.isSuccess) : Tally c' := by
  constructor <;> rw [hlog, Notice.traces_append, List.countP_append]
  · rw [hshifted, h.tokensShifted_eq]
  · rw [hreductions, h.reductions_eq]
  · rw [hsuccesses, h.errorsRecovered_eq]

/-- A move tells no report. -/
theorem Account.moved (h : p.Account start pairs c) (hmove : p.Moves event c c') :
    p.Account start pairs c' := by
  obtain ⟨hattempt, hlog, hshifted, hreductions, herrors, hrecovered⟩ := hmove
  refine ⟨?_, h.mended, herrors ▸ h.syntaxErrors, hrecovered ▸ h.errorsRecovered, h.bounded,
    ?_, ?_⟩
  · rw [hlog, Notice.diagnostics_append, diagnostics_traced, List.append_nil, h.reports]
  · intro htrace
    have hfails : [event].countP TraceEvent.isSuccess = 0 := by
      rw [List.countP_singleton, TraceEvent.isSuccess, hattempt]
      rfl
    have htraces := traces_traced htrace [event]
    refine (h.tally htrace).grown hlog ?_ ?_ ?_
    · rw [htraces, hshifted]
    · rw [htraces, hreductions]
    · rw [htraces, hfails, hrecovered, Nat.add_zero]
  · intro htrace
    rw [hlog]
    refine (h.orderly htrace).append_moves ?_
    intro other hother
    rw [List.mem_singleton.mp hother, hattempt]

/-! ## Errors -/

/-- What recovery has told of its strategies, counted as moves. -/
theorem countP_attempts {events : List TraceEvent} {attempts : List (Strategy × Bool)}
    (h : events.map TraceEvent.attempt? = attempts.map some) :
    events.countP TraceEvent.isShift = 0 ∧ events.countP TraceEvent.isReduction = 0 ∧
      events.countP TraceEvent.isSuccess = attempts.countP Prod.snd ∧
      events.filterMap TraceEvent.attempt? = attempts := by
  have hrecovery : ∀ event ∈ events, event.isShift = false ∧ event.isReduction = false := by
    intro event hevent
    have hmem : event.attempt? ∈ attempts.map some := h ▸ List.mem_map_of_mem hevent
    obtain ⟨attempt, -, hattempt⟩ := List.mem_map.mp hmem
    cases event with
    | recovery => exact ⟨rfl, rfl⟩
    | _ => cases hattempt
  refine ⟨?_, ?_, ?_, ?_⟩
  · rw [List.countP_eq_zero]
    exact fun event hevent => by simp [(hrecovery event hevent).1]
  · rw [List.countP_eq_zero]
    exact fun event hevent => by simp [(hrecovery event hevent).2]
  · have hcount := congrArg (List.countP (Option.any Prod.snd)) h
    rw [List.countP_map, List.countP_map] at hcount
    exact hcount
  · have hsome := congrArg (List.filterMap id) h
    rw [List.filterMap_map, List.filterMap_map] at hsome
    exact hsome.trans List.filterMap_some

/-- The last of the errors that have been repaired. -/
theorem mended_concat {n : Notice V}
    (h : ∀ done token n later, pairs = done ++ (token, n) :: later →
      p.Mended start done token n) (hlast : p.Mended start pairs token n) :
    ∀ done token' n' later, pairs ++ [(token, n)] = done ++ (token', n') :: later →
      p.Mended start done token' n' := by
  intro done token' n' later hsplit
  rcases List.eq_nil_or_concat later with rfl | ⟨later, pair, rfl⟩
  · obtain ⟨rfl, hpair⟩ := List.append_inj' hsplit rfl
    cases hpair
    exact hlast
  · rw [List.concat_eq_append, ← List.cons_append, ← List.append_assoc] at hsplit
    exact h done token' n' later (List.append_inj' hsplit rfl).1

/-- A repair within the contract reports what has mended the token, and nothing else. -/
theorem exists_report {entry : Entry V} (htop : c.stack.top = .ok entry)
    (hact : p.tables.action entry.state token.id = .ok .error)
    (hrecover : Recovery.recover p fuel token (c.reported token) = .ok (.repaired c')) :
    ∃ tried strategy n, (tried ++ [strategy]).Sublist Recovery.allStrategies ∧
      Mends p.tables entry.state token n ∧
      Recovery.Tells p (c.reported token) c' (Recovery.failures tried ++ [(strategy, true)])
        [n] := by
  obtain ⟨i, P, rfl, rfl, -, -, hprescribed, hcommits⟩ :=
    exists_commits (show (c.reported token).stack.top = .ok entry from htop) hact hrecover
  have hmends := hprescribed.mends (Nat.le_max_right _ _) hact
  cases Recovery.recover_tells hrecover with
  | @repaired tried strategy reports _ hsub hreports htells =>
    obtain ⟨events, hevents, hlog⟩ := htells
    -- The repairs in the log are those reported, and they are what was prescribed.
    have htraced : (p.traced events).filter Notice.isRepair = [] :=
      List.filter_eq_nil_iff.mpr fun n hn => by simp [isRepair_of_mem_traced hn]
    have hrepairs := hcommits.repairs
    rw [repairs_eq_log, repairs_eq_log, hlog, List.filter_append, List.filter_append, htraced,
      List.nil_append, List.filter_eq_self.mpr hreports] at hrepairs
    obtain rfl := List.append_cancel_left hrepairs
    exact ⟨tried, strategy, P.notice, hsub, hmends, events, hevents, hlog⟩

namespace Account

/-- An error adds itself to what has been told, and what recovery tells of it. -/
theorem error_told {attempts : List (Strategy × Bool)} {reports : List (Notice V)}
    (h : p.Account start pairs c) (htells : Recovery.Tells p (c.reported token) c' attempts reports)
    (hreports : ∀ n ∈ reports, n.isRepair = true)
    (htried : TriedInOrder attempts (reports.any Notice.isRepair))
    (hshifted : c'.stats.tokensShifted = c.stats.tokensShifted)
    (hreductions : c'.stats.reductions = c.stats.reductions)
    (hrecovered : c'.stats.errorsRecovered = c.stats.errorsRecovered + attempts.countP Prod.snd) :
    Notice.diagnostics c'.log = toldPairs pairs ++ .syntaxError token :: reports ∧
      (p.settings.trace = true → Tally c') ∧ (p.settings.trace = true → Orderly c'.log) := by
  -- Behind the report of the error stand the moves of recovery, and then its reports.
  obtain ⟨events, hevents, hlog⟩ := htells
  rw [log_reported, List.append_assoc, List.singleton_append] at hlog
  obtain ⟨hshifts, hreduces, hsuccesses, hattempts⟩ := countP_attempts hevents
  have hnotraces : ∀ n ∈ reports, n.isTrace = false := fun n hn =>
    Notice.not_isTrace_of_isRepair (hreports n hn)
  have htraces : p.settings.trace = true →
      Notice.traces (p.traced events ++ reports) = events := by
    intro htrace
    rw [Notice.traces_append, traces_traced htrace, Notice.traces_eq_nil hnotraces,
      List.append_nil]
  refine ⟨?_, ?_, ?_⟩
  · rw [hlog, Notice.diagnostics_append, h.reports]
    show _ = _ ++ ([.syntaxError token] ++ reports)
    rw [← List.singleton_append, Notice.diagnostics_append, Notice.diagnostics_append,
      diagnostics_traced, List.nil_append, Notice.diagnostics_eq_self hnotraces]
    rfl
  · intro htrace
    have htold : Notice.traces (.syntaxError token :: (p.traced events ++ reports)) = events :=
      htraces htrace
    refine (h.tally htrace).grown hlog ?_ ?_ ?_
    · rw [htold, hshifts, hshifted, Nat.add_zero]
    · rw [htold, hreduces, hreductions, Nat.add_zero]
    · rw [htold, hsuccesses, hrecovered]
  · intro htrace
    rw [hlog]
    refine (h.orderly htrace).append_error token ?_ ?_
    · intro n hn
      rcases List.mem_append.mp hn with hn | hn
      · obtain ⟨event, -, rfl⟩ := mem_traced hn
        rfl
      · exact Notice.not_isSyntaxError_of_isRepair (hreports n hn)
    · have hmoves : (p.traced events).any Notice.isRepair = false :=
        List.any_eq_false.mpr fun n hn => by simp [isRepair_of_mem_traced hn]
      rw [Notice.attempts, htraces htrace, hattempts, List.any_append, hmoves, Bool.false_or]
      exact htried

theorem countP_failures (tried : List Strategy) :
    (Recovery.failures tried).countP Prod.snd = 0 := by
  rw [List.countP_eq_zero]
  intro attempt hattempt
  obtain ⟨strategy, -, rfl⟩ := List.mem_map.mp hattempt
  exact Bool.false_ne_true

/-- A repair pairs the error with what has mended it. -/
theorem mended_of_recover {entry : Entry V} (h : p.Account start pairs c)
    (hreach : ReflTransGen p.Step start (.running token c)) (htop : c.stack.top = .ok entry)
    (hact : p.tables.action entry.state token.id = .ok .error)
    (hrecover : Recovery.recover p fuel token (c.reported token) = .ok (.repaired c'))
    (hfew : c.stats.syntaxErrors < p.settings.maxErrors) :
    ∃ n, p.Account start (pairs ++ [(token, n)])
      (c'.count fun stats => { stats with errorsRecovered := stats.errorsRecovered + 1 }) := by
  obtain ⟨tried, strategy, n, hsub, hmends, htells⟩ := exists_report htop hact hrecover
  obtain ⟨hshifted, hreductions, herrors, hrecovered⟩ := Recovery.recover_counts hrecover
  have hreports : ∀ n' ∈ [n], n'.isRepair = true := List.forall_mem_singleton.mpr hmends.isRepair
  have htried : TriedInOrder (Recovery.failures tried ++ [(strategy, true)])
      ([n].any Notice.isRepair) := by
    rw [List.any_cons, hmends.isRepair]
    exact triedInOrder_success hsub
  -- Strategies may have failed before, but one has succeeded.
  have hone : (Recovery.failures tried ++ [(strategy, true)]).countP Prod.snd = 1 := by
    rw [List.countP_append, countP_failures]
    rfl
  have hcounted : Recovery.Tells p (c.reported token)
      (c'.count fun stats => { stats with errorsRecovered := stats.errorsRecovered + 1 })
      (Recovery.failures tried ++ [(strategy, true)]) [n] := htells.congr rfl
  obtain ⟨hdiagnostics, htally, horderly⟩ := h.error_told hcounted hreports htried hshifted
    hreductions (by rw [hone]; exact congrArg (· + 1) hrecovered)
  refine ⟨n, ?_, mended_concat h.mended ⟨c, entry, hreach, h.reports, htop, hact, hmends⟩, ?_, ?_,
    ?_, htally, horderly⟩
  · rw [hdiagnostics, toldPairs_concat]
  · rw [List.length_append]
    exact herrors.trans (congrArg (· + 1) h.syntaxErrors)
  · rw [List.length_append]
    exact congrArg (· + 1) (hrecovered.trans h.errorsRecovered)
  · rw [List.length_append, ← h.syntaxErrors]
    exact hfew

/-- An error without a repair is the last one. -/
theorem unmended {tried : List Strategy} (h : p.Account start pairs c)
    (htried : tried.Sublist Recovery.allStrategies)
    (htells : Recovery.Tells p (c.reported token) c' (Recovery.failures tried) [])
    (hcounts : SameCounts (c.reported token) c') (hresult : ∀ value, result ≠ .ok value)
    (hfault : ∀ fault, result = .error (.scanner fault) → p.FaultInRecovery start fault c') :
    p.Protocol start pairs (some token) result c' := by
  obtain ⟨hshifted, hreductions, herrors, hrecovered⟩ := hcounts
  obtain ⟨hdiagnostics, htally, horderly⟩ := h.error_told htells (by simp)
    (triedInOrder_failures htried) hshifted hreductions (by rw [countP_failures]; exact hrecovered)
  have hsyntaxErrors : c'.stats.syntaxErrors = pairs.length + 1 :=
    herrors.trans (congrArg (· + 1) h.syntaxErrors)
  refine ⟨hdiagnostics, h.repairs, h.mended, hrecovered.trans h.errorsRecovered, ?_, ?_, ?_,
    fun _ _ _ => rfl, fun fault hfaulty => ⟨fun _ => hfault fault hfaulty, fun _ => rfl⟩, htally,
    horderly⟩
  · rw [hsyntaxErrors, ← countP_diagnostics, hdiagnostics, List.countP_append,
      countP_toldPairs h.repairs]
    rfl
  · rw [hsyntaxErrors]
    exact Nat.succ_le_succ h.bounded
  · intro value hvalue
    exact absurd hvalue (hresult value)

end Account

/-- A fault that ends recovery leaves an error that is not repaired. -/
theorem FaultInRecovery.getLast?_eq {fault : ScanError} (h : p.FaultInRecovery start fault c) :
    ∃ token, (Notice.diagnostics c.log).getLast? = some (.syntaxError token) := by
  obtain ⟨fuel, token, c₁, -, hrecover⟩ := h
  cases Recovery.recover_tells hrecover with
  | aborted _ htells =>
    obtain ⟨events, -, hlog⟩ := htells
    refine ⟨token, ?_⟩
    rw [hlog, log_reported, List.append_nil, Notice.diagnostics_append, diagnostics_traced,
      List.append_nil, Notice.diagnostics_append]
    exact List.getLast?_concat

/-- Without an error that is left, all have been repaired. -/
theorem Account.finished (h : p.Account start pairs c)
    (hresult : ∀ reason position, result ≠ .error (.unrecoverable reason position)) :
    p.Protocol start pairs none result c := by
  refine ⟨?_, h.repairs, h.mended, h.errorsRecovered, ?_, ?_, fun _ _ => rfl, ?_, ?_, h.tally,
    h.orderly⟩
  · rw [h.reports]
    exact (List.append_nil _).symm
  · rw [h.syntaxErrors, ← countP_diagnostics, h.reports, countP_toldPairs h.repairs]
  · rw [h.syntaxErrors]
    exact Nat.le_succ_of_le h.bounded
  · intro reason position hgivenUp
    exact absurd hgivenUp (hresult reason position)
  · intro fault _
    refine ⟨fun hsome => Bool.noConfusion hsome, ?_⟩
    intro hfault
    obtain ⟨token, hlast⟩ := hfault.getLast?_eq
    rw [h.reports] at hlast
    exact absurd hlast (getLast?_toldPairs h.repairs token)

/-! ## Runs -/

/-- What has been told and counted where a parse stands. -/
def Logged (p : Parser σ V) (start : Progress σ V) : Progress σ V → Prop
  | .running _ c => ∃ pairs, p.Account start pairs c
  | .finished result c => ∃ pairs last, p.Protocol start pairs last result c

theorem Account.logged_of_read (h : p.Account start pairs c) (hread : c.readToken = .ok q) :
    p.Logged start q := by
  have hreads := readToken_spec hread
  have haccount : p.Account start pairs q.configuration :=
    h.of_eq (log_readToken hread) (SameCounts.of_stats_eq (.refl c) hreads.stats_eq)
  cases q with
  | running token c' => exact ⟨pairs, haccount⟩
  | finished result c' =>
    obtain ⟨fault, rfl⟩ := hreads.fault_of_finished result c' rfl
    exact ⟨pairs, none, haccount.finished (by simp)⟩

theorem Account.logged_of_reduce (h : p.Account start pairs c)
    (hreduce : p.reduce rule token c = .ok q) : p.Logged start q := by
  obtain ⟨info, _, _, _, _, memory, -, -, -, -, -, -, base, hfollow⟩ := reduce_eq_ok hreduce
  have hreduced := h.moved (moves_reduced p rule info memory c)
  rcases follow_eq_ok hfollow with ⟨target, rfl⟩ | rfl
  · exact ⟨pairs, hreduced.of_eq rfl ⟨rfl, rfl, rfl, rfl⟩⟩
  · exact ⟨pairs, none, (hreduced.moved (moves_accepted p _)).finished (by simp)⟩

theorem Account.logged_of_repair {entry : Entry V} (h : p.Account start pairs c)
    (hreach : ReflTransGen p.Step start (.running token c)) (htop : c.stack.top = .ok entry)
    (hact : p.tables.action entry.state token.id = .ok .error)
    (hrepair : p.repair fuel token c = .ok q) : p.Logged start q := by
  rcases repair_cases hrepair with ⟨_, _, rfl⟩ | ⟨e, c', hrecover, rfl⟩ |
    ⟨c', hfew, hrecover, hread⟩
  -- Recovery is not tried at all.
  · exact ⟨pairs, some token, h.unmended (List.nil_sublist _) (.of_log_eq rfl) (.refl _) (by simp)
      (by simp)⟩
  -- Recovery gives up, or a fault ends it.
  · cases Recovery.recover_tells hrecover with
    | aborted htried htells =>
      refine ⟨pairs, some token, h.unmended htried htells (Recovery.recover_counts hrecover)
        (by simp) ?_⟩
      intro fault hfault
      cases hfault
      exact ⟨fuel, token, c, hreach, hrecover⟩
  · obtain ⟨n, haccount⟩ := h.mended_of_recover hreach htop hact hrecover hfew
    exact haccount.logged_of_read hread

/-- A step adds to what has been told what it does. -/
theorem Account.logged_of_step (h : p.Account start pairs c)
    (hreach : ReflTransGen p.Step start (.running token c)) (hstep : p.step fuel token c = .ok q) :
    p.Logged start q := by
  obtain ⟨entry, action, htop, hact, hdone⟩ := exists_act hstep
  cases action with
  | shift target =>
    exact (h.moved (moves_shifted p target token c)).logged_of_read (liftM_eq_ok.mp hdone)
  | reduce rule => exact h.logged_of_reduce (liftM_eq_ok.mp hdone)
  | accept =>
    cases hdone
    exact ⟨pairs, none, (h.moved (moves_accepted p c)).finished (by simp)⟩
  | error => exact h.logged_of_repair hreach htop hact hdone

/-- Before anything has happened nothing has been told. -/
theorem account_initial (p : Parser σ V) (start : Progress σ V) (stream : TokenStream V)
    (memory : σ) : p.Account start [] (.initial stream memory) := by
  refine ⟨rfl, ?_, rfl, rfl, Nat.zero_le _, fun _ => ⟨rfl, rfl, rfl⟩, fun _ => orderly_nil⟩
  intro done token n later hsplit
  simp at hsplit

theorem Starts.logged (h : p.Starts scanner goal start) : p.Logged start start := by
  obtain ⟨stream, memory, hread⟩ := h.exists_read
  exact (account_initial p start stream memory).logged_of_read hread

theorem logged_of_reaches (hstart : p.Starts scanner goal start)
    (h : ReflTransGen p.Step start q) : p.Logged start q := by
  induction h with
  | refl => exact hstart.logged
  | tail hreach hstep ih =>
    cases hstep with
    | intro hstep =>
      obtain ⟨pairs, haccount⟩ := ih
      exact haccount.logged_of_step hreach hstep

/-! ## The log of a parse -/

/-- What a parse tells, lexical faults and traces apart, are syntax errors, each followed by its
repair, and perhaps a last error without one. An accepting parse has none that is left, a parse
that is given up has one, and a scanner's fault leaves one if and only if it was met while an
error was being repaired. The counters count what is told; and with traces, strategies were tried
in order behind each error, up to the one that has made the repair. -/
theorem protocol_is_kept {outcome : Outcome σ V} (h : p.Answers scanner goal outcome) :
    ∃ start c pairs last, p.Starts scanner goal start ∧
      ReflTransGen p.Step start (.finished outcome.result c) ∧ outcome.stats = c.stats ∧
      outcome.notices = c.notices ∧ p.Protocol start pairs last outcome.result c := by
  obtain ⟨start, c, hstart, hreach, hstats, hnotices⟩ := h.reaches
  obtain ⟨pairs, last, hprotocol⟩ := logged_of_reaches hstart hreach
  exact ⟨start, c, pairs, last, hstart, hreach, hstats, hnotices, hprotocol⟩

def tracedLetter : Parser Unit Unit :=
  { oneLetter with settings := { Settings.standard with trace := true } }

/-- A second letter is removed. If the source is lost behind it, then the simulation that was to
confirm this meets the fault, and the error stays. -/
theorem protocol_is_kept_oneLetter :
    (∃ outcome start c, tracedLetter.Answers (.ofTokens [letter, letter]) none outcome ∧
      outcome.notices = c.notices ∧ Notice.attempts c.log = [(.deletion, true)] ∧
      tracedLetter.Protocol start [(letter, .removed letter)] none outcome.result c) ∧
    ∃ outcome start c, tracedLetter.Answers
        (.ofItems [.ok letter, .ok letter, .error (.io "lost")]) none outcome ∧
      outcome.notices = c.notices ∧
      tracedLetter.Protocol start [] (some letter) outcome.result c ∧
      tracedLetter.FaultInRecovery start (.io "lost") c := by
  constructor
  · obtain ⟨outcome, hparse, houtcome⟩ := exists_ok_of_any
      (show (tracedLetter.parse 10 (.ofTokens [letter, letter]) ()).toOption.any
        (fun outcome => decide (outcome.notices.toList = [.trace (.shift 1 1), .syntaxError letter,
          .trace (.recovery .deletion 1 true 0 1), .removed letter, .trace (.reduce 0 2 1),
          .trace .accept] ∧ outcome.stats.errorsRecovered = 1)) = true by decide +kernel)
    obtain ⟨hlist, hone⟩ := of_decide_eq_true houtcome
    obtain ⟨start, c, pairs, last, -, -, hstats, hnotices, hprotocol⟩ :=
      protocol_is_kept (.parse hparse)
    rw [hnotices] at hlist
    have hreports := hprotocol.reports
    rw [log, hlist] at hreports
    -- One error was repaired, so there is one pair, and it is the one in the log.
    rw [hstats, hprotocol.errorsRecovered, List.length_eq_one_iff] at hone
    obtain ⟨⟨token, n⟩, rfl⟩ := hone
    obtain ⟨htoken, hreports⟩ := List.cons.inj hreports
    obtain ⟨rfl, hlast⟩ := List.cons.inj hreports
    cases htoken
    cases last with
    | some token => cases hlast
    | none =>
      refine ⟨outcome, start, c, .parse hparse, hnotices, ?_, hprotocol⟩
      rw [log, hlist]
      rfl
  · obtain ⟨outcome, hparse, houtcome⟩ := exists_ok_of_any
      (show (tracedLetter.parse 10 (.ofItems [.ok letter, .ok letter, .error (.io "lost")])
        ()).toOption.any (fun outcome => decide (outcome.notices.toList = [.trace (.shift 1 1),
          .syntaxError letter] ∧ outcome.stats.errorsRecovered = 0 ∧
          outcome.result = .error (.scanner (.io "lost")))) = true by decide +kernel)
    obtain ⟨hlist, hzero, hresult⟩ := of_decide_eq_true houtcome
    obtain ⟨start, c, pairs, last, -, -, hstats, hnotices, hprotocol⟩ :=
      protocol_is_kept (.parse hparse)
    rw [hnotices] at hlist
    have hreports := hprotocol.reports
    rw [log, hlist] at hreports
    -- Nothing was repaired, so the error in the log is the one at which the fault came.
    rw [hstats, hprotocol.errorsRecovered, List.length_eq_zero_iff] at hzero
    subst hzero
    cases last with
    | none => cases hreports
    | some token =>
      obtain ⟨htoken, -⟩ := List.cons.inj hreports
      cases htoken
      exact ⟨outcome, start, c, .parse hparse, hnotices, hprotocol,
        (hprotocol.fault _ hresult).mp rfl⟩

end Parser

end ShiftReduce
