import ShiftReduce.Proofs.Parser.Alongside
import ShiftReduce.Proofs.Parser.Invariants
import ShiftReduce.Proofs.Parser.Log

/-!
# The notices of a parse grow

What a parse has told stays told, and it tells more only behind that. Syntax errors are told by
steps with the error action alone: `Quiet` relates two configurations if the second one has told
what the first one has, and no other syntax error.

* `Parser.step_adds`: what steps without a syntax error tell.
* `Recovery.recover_quiet` and `Parser.step_quiet`: what recovery and steps tell.
* `Parser.notices_grow`: what all steps do.
* `Parser.errorFree_of_reaches`: a parser that does not recover stops at its first syntax error.
-/

namespace ShiftReduce

open ShiftReduce.Configuration Relation

variable {σ V : Type} {p : Parser σ V} {fuel : Nat} {c c' c'' : Configuration σ V}
  {token : Symbol V} {q q' start : Progress σ V} {r : Repair σ V}

/-! ## Quiet changes -/

/-- Notices of a kind that may be told wherever there is no syntax error: lexical faults, and
traces of moves other than the end of a strategy. -/
structure Plain (ok : Notice V → Prop) : Prop where
  lexical : ∀ e, ok (.lexicalError e)
  move : ∀ event : TraceEvent, event.attempt? = none → ok (.trace event)

/-- A configuration that has told what another one has, and no other syntax error. -/
def Quiet (c c' : Configuration σ V) : Prop := Adds (fun n => n.isSyntaxError = false) c c'

theorem plain_quiet : Plain fun n : Notice V => n.isSyntaxError = false :=
  ⟨fun _ => rfl, fun _ _ => rfl⟩

/-- No syntax error has been told. -/
def ErrorFree (c : Configuration σ V) : Prop :=
  ∀ n ∈ c.notices.toList, n.isSyntaxError = false

namespace Recovery

/-- Recovery tells no syntax error. -/
theorem stable_quiet (p : Parser σ V) (c : Configuration σ V) :
    Stable p (Quiet c) fun _ => Quiet c := by
  constructor
  case unwound => exact fun h _ => Adds.trans h (.of_eq rfl)
  case entered => exact fun h _ _ _ => Adds.trans h (.of_eq rfl)
  case widened => exact fun h _ _ => Adds.trans h (.of_eq rfl)
  constructor
  case stream => exact fun h _ => Adds.trans h (.of_eq rfl)
  case traced => exact fun h => Adds.trans h (.trace _ _ rfl)
  case told =>
    exact fun h hn => Adds.trans h (.notify _ (Notice.not_isSyntaxError_of_isRepair hn))
  case simulated => exact fun h hsim _ => Adds.trans h (.simulate plain_quiet.lexical hsim)
  case faulted => exact fun h hsim _ => Adds.trans h (.simulate plain_quiet.lexical hsim)
  case simulating => exact fun h hsim => .inl (Adds.trans h (.simulates plain_quiet.lexical hsim))

theorem recover_quiet (h : recover p fuel token c = .ok r) : Quiet c r.configuration :=
  ((stable_quiet p c).recover_ends (.refl c) h).held.of_unhurt

end Recovery

namespace Parser

/-! ## Steps -/

variable {ok : Notice V → Prop}

theorem readToken_adds (hok : Plain ok) (h : c.readToken = .ok q) : Adds ok c q.configuration := by
  obtain ⟨d, -, h⟩ := bind_eq_ok.mp h
  have hread : Adds ok c (({ c with stream := d.stream } : Configuration σ V).notifyLexical
      d.lexical) := .trans (.of_eq rfl) (.notifyLexical hok.lexical _ _)
  dsimp only at h
  split at h
  · cases h
    exact hread
  · cases h
    exact hread

theorem reduce_adds (hok : Plain ok) {rule : RuleId} (h : p.reduce rule token c = .ok q) :
    Adds ok c q.configuration := by
  obtain ⟨info, memory, base, x, -, -, -, -, h⟩ := reduce_follows h
  have hreduced : Adds ok c (p.reduced rule info memory c) :=
    .trans (.of_eq rfl) (.trace _ _ (hok.move _ rfl))
  rcases follow_eq_ok h with ⟨target, rfl⟩ | rfl
  · exact hreduced.trans (.of_eq rfl)
  · exact hreduced.trans (.trace _ _ (hok.move _ rfl))

/-- A step repairs if it meets the error action, and otherwise it tells what may be told wherever
there is no syntax error. -/
theorem step_adds (hok : Plain ok) (h : p.step fuel token c = .ok q) :
    (p.Errs token c ∧ p.repair fuel token c = .ok q) ∨
      ¬p.Errs token c ∧ Adds ok c q.configuration := by
  obtain ⟨entry, action, htop, hact, h⟩ := exists_act h
  by_cases herror : action = .error
  · subst herror
    exact .inl ⟨⟨entry, htop, hact⟩, h⟩
  · refine .inr ⟨not_errs_of_action htop hact herror, ?_⟩
    cases action with
    | shift target =>
      have hshifted : Adds ok c (p.shifted target token c) :=
        .trans (.trace c p (hok.move _ rfl)) (.of_eq rfl)
      exact hshifted.trans (readToken_adds hok (liftM_eq_ok.mp h))
    | reduce rule => exact reduce_adds hok (liftM_eq_ok.mp h)
    | accept =>
      cases h
      exact .trace _ _ (hok.move _ rfl)
    | error => exact absurd rfl herror

/-- Behind a syntax error that has been reported, no other one is told before the next step. -/
theorem repair_quiet (h : p.repair fuel token c = .ok q) :
    Quiet (c.reported token) q.configuration := by
  rcases repair_cases h with ⟨reason, position, rfl⟩ | ⟨e, c', hrecover, rfl⟩ |
    ⟨c', -, hrecover, hread⟩
  · exact .refl _
  · exact Recovery.recover_quiet hrecover
  · have hreads := readToken_adds plain_quiet hread
    exact Adds.trans (Recovery.recover_quiet hrecover) (.trans (.of_eq rfl) hreads)

/-- A step tells a syntax error if it meets the error action, and otherwise none. -/
theorem step_quiet (h : p.step fuel token c = .ok q) :
    (p.Errs token c ∧ Quiet (c.reported token) q.configuration) ∨
      ¬p.Errs token c ∧ Quiet c q.configuration := by
  rcases step_adds plain_quiet h with ⟨herrs, hrepair⟩ | ⟨hok, hquiet⟩
  · exact .inl ⟨herrs, repair_quiet hrepair⟩
  · exact .inr ⟨hok, hquiet⟩

theorem reported_grows (token : Symbol V) (c : Configuration σ V) :
    c.notices.toList <+: (c.reported token).notices.toList :=
  ⟨[.syntaxError token], Array.toList_push.symm⟩

/-- What has been told stays told. -/
theorem notices_grow (h : ReflTransGen p.Step q q') :
    q.configuration.notices.toList <+: q'.configuration.notices.toList := by
  induction h with
  | refl => exact List.prefix_rfl
  | tail _ hstep ih =>
    cases hstep with
    | @intro fuel token c q hstep =>
      refine ih.trans ?_
      rcases step_quiet hstep with ⟨-, hquiet⟩ | ⟨-, hquiet⟩
      · exact (reported_grows token c).trans hquiet.isPrefix
      · exact hquiet.isPrefix

/-! ## Without recovery -/

/-- A parser that does not recover has told no syntax error, or it has stopped at the first. -/
theorem errorFree_of_reaches (hoff : p.settings.recovery = false)
    (hstart : ErrorFree start.configuration) (h : ReflTransGen p.Step start q) :
    ErrorFree q.configuration ∨ ∃ token c, ReflTransGen p.Step start (.running token c) ∧
      p.Errs token c ∧ ErrorFree c ∧ q = givenUp .recoveryDisabled token c := by
  induction h with
  | refl => exact .inl hstart
  | tail hreach hstep ih =>
    cases hstep with
    | @intro fuel token c q hstep =>
      rcases ih with hfree | ⟨_, _, -, -, -, hq⟩
      · rcases step_quiet hstep with ⟨⟨entry, htop, hact⟩, -⟩ | ⟨-, hquiet⟩
        · refine .inr ⟨token, c, hreach, ⟨entry, htop, hact⟩, hfree, ?_⟩
          rw [step_eq_act htop hact, act, repair_of_disabled hoff] at hstep
          exact (Except.ok.inj hstep).symm
        · exact .inl (hquiet.forall_mem hfree)
      · cases hq

end Parser

end ShiftReduce
