import ShiftReduce.Parser.Recovery
import ShiftReduce.Proofs.Stream.Twins

/-!
# Recovery in lockstep

Two parsers with the same tables and the same actions do the same, move by move, as long as a
relation between their configurations is kept by the few things that a parser does to one: it
reads, pushes, counts, tells and traces. What the parsers may differ in, such as their settings or
the places of the buffered tokens in the ring, is up to the relation.

* `Lockstep`: what the relation has to keep for the moves of the parsers.
* `RecoveryLockstep`: what it has to keep for recovery as well, which edits the streams.
* `RecoveryLockstep.recover`: recovery does the same on both, from the first strategy to the last.
-/

namespace ShiftReduce

variable {σ V : Type} {p p' : Parser σ V} {R : Configuration σ V → Configuration σ V → Prop}
  {S : TokenStream V → TokenStream V → Prop} {c c' : Configuration σ V}

/-- Two parsers do the same to related configurations. -/
structure Lockstep (p p' : Parser σ V) (R : Configuration σ V → Configuration σ V → Prop) :
    Prop where
  tables_eq : p'.tables = p.tables
  actions_eq : p'.actions = p.actions
  stack_eq : ∀ {c c'}, R c c' → c'.stack = c.stack
  memory_eq : ∀ {c c'}, R c c' → c'.memory = c.memory
  of_stack : ∀ {c c'}, R c c' → ∀ stack, R { c with stack } { c' with stack }
  of_memory : ∀ {c c'}, R c c' → ∀ memory, R { c with memory } { c' with memory }
  count : ∀ {c c'}, R c c' → ∀ f, R (c.count f) (c'.count f)
  /-- Traces apart, they tell the same. -/
  told : ∀ {c c'} {more : List (Notice V)}, R c c' → (∀ n ∈ more, n.isTrace = false) →
    R { c with notices := c.notices ++ more.toArray }
      { c' with notices := c'.notices ++ more.toArray }
  trace : ∀ {c c'}, R c c' → ∀ event, R (c.trace p event) (c'.trace p' event)
  next : ∀ {c c'}, R c c' → Agree
    (fun d d' => d'.lexical = d.lexical ∧ d'.result = d.result ∧
      R { c with stream := d.stream } { c' with stream := d'.stream })
    c.stream.next c'.stream.next

namespace Lockstep

variable (l : Lockstep p p' R)

include l

theorem notify (h : R c c') {n : Notice V} (hn : n.isTrace = false) :
    R (c.notify n) (c'.notify n) := by
  unfold Configuration.notify
  rw [← Array.append_singleton, ← Array.append_singleton]
  have hmore : ∀ m ∈ [n], m.isTrace = false := by simpa using hn
  exact l.told h hmore

theorem notifyLexical (h : R c c') (faults : List LexicalError) :
    R (c.notifyLexical faults) (c'.notifyLexical faults) := by
  refine l.told h ?_
  simp [Notice.isTrace, Notice.traced?]

/-- Both stacks reach the same depth. -/
theorem push (h : R c c') (state : StateId) (x : Symbol V) :
    R (c.push state x) (c'.push state x) := by
  unfold Configuration.push
  rw [l.stack_eq h]
  exact l.count (l.of_stack h (c.stack.push state x))
    fun stats => { stats with maxDepth := max stats.maxDepth (c.stack.push state x).depth }

end Lockstep

/-- Two parsers do the same to related configurations, also in recovery, where their streams are
edited. -/
structure RecoveryLockstep (p p' : Parser σ V)
    (R : Configuration σ V → Configuration σ V → Prop)
    (S : TokenStream V → TokenStream V → Prop) : Prop extends Lockstep p p' R where
  stream : ∀ {c c'}, R c c' → S c.stream c'.stream
  of_stream : ∀ {c c' stream stream'}, R c c' → S stream stream' →
    R { c with stream } { c' with stream := stream' }
  interchangeable : TokenStream.Interchangeable S

/-- Repairs that have come to the same, in related configurations. -/
inductive Repair.Related (R : Configuration σ V → Configuration σ V → Prop) :
    Repair σ V → Repair σ V → Prop
  | repaired {c c' : Configuration σ V} : R c c' → Related R (.repaired c) (.repaired c')
  | aborted {e : ParseError} {c c' : Configuration σ V} : R c c' →
      Related R (.aborted e c) (.aborted e c')

/-- Attempts that have come to the same, in related configurations. -/
inductive Attempt.Related (R : Configuration σ V → Configuration σ V → Prop) :
    Attempt σ V → Attempt σ V → Prop
  | settled {r r' : Repair σ V} : r.Related R r' → Related R (.settled r) (.settled r')
  | failed {c c' : Configuration σ V} : R c c' → Related R (.failed c) (.failed c')

theorem Repair.Related.eq {r r' : Repair σ V} (h : r.Related Eq r') : r' = r := by
  cases h with
  | repaired h => rw [h]
  | aborted h => rw [h]

namespace Attempt.Related

variable {a a' : Attempt σ V}

theorem eq (h : a.Related Eq a') : a' = a := by
  cases h with
  | settled h => rw [h.eq]
  | failed h => rw [h]

theorem orElse (h : a.Related R a') {second second' : Configuration σ V → Fueled (Attempt σ V)}
    (hsecond : ∀ c c', R c c' → Agree (Attempt.Related R) (second c) (second' c')) :
    Agree (Attempt.Related R) (a.orElse second) (a'.orElse second') := by
  cases h with
  | settled hrepair => exact .ok (.settled hrepair)
  | failed hc => exact hsecond _ _ hc

theorem orFinally (h : a.Related R a') {last last' : Configuration σ V → Fueled (Repair σ V)}
    (hlast : ∀ c c', R c c' → Agree (Repair.Related R) (last c) (last' c')) :
    Agree (Repair.Related R) (a.orFinally last) (a'.orFinally last') := by
  cases h with
  | settled hrepair => exact .ok hrepair
  | failed hc => exact hlast _ _ hc

end Attempt.Related

namespace RecoveryLockstep

variable (l : RecoveryLockstep p p' R S)

include l

/-! ## Edits of the streams -/

theorem peek?_eq (h : R c c') : c'.stream.peek? 0 = c.stream.peek? 0 :=
  l.interchangeable.peek?_eq (l.stream h) 0

theorem modifyHead (h : R c c') (f : Symbol V → Symbol V) :
    R (Recovery.modifyHead f c) (Recovery.modifyHead f c') :=
  l.of_stream h (l.interchangeable.modify (l.stream h) 0 f)

theorem notifyHead (h : R c c') {notice : Symbol V → Notice V}
    (hnotice : ∀ x, (notice x).isTrace = false) :
    R (Recovery.notifyHead notice c) (Recovery.notifyHead notice c') := by
  unfold Recovery.notifyHead
  rw [l.peek?_eq h]
  cases c.stream.peek? 0 with
  | some token => exact l.notify h (hnotice token)
  | none => exact h

theorem simulate (h : R c c') (fuel : Nat) :
    Agree (fun r r' => r.1.Related S r'.1 ∧ R r.2 r'.2) (c.simulate p fuel)
      (c'.simulate p' fuel) := by
  refine (l.interchangeable.rewind (l.stream h)).toFueled.bind fun stream stream' hstream => ?_
  have hrun : Agree (Simulation.Related S)
      (Simulation.run p.tables fuel c.stack.states stream)
      (Simulation.run p'.tables fuel c'.stack.states stream') := by
    rw [l.tables_eq, l.stack_eq h]
    exact l.interchangeable.simulate hstream p.tables fuel c.stack.states
  refine hrun.bind ?_
  rintro sim - ⟨hleft⟩
  exact .ok ⟨.intro hleft, l.notifyLexical (l.count (l.of_stream h hleft) _) _⟩

theorem traceSuccess (h : R c c') {sim sim' : Simulation V} (hsim : sim.Related S sim')
    (strategy : Strategy) (state : StateId) (unwound : Nat) :
    R (Recovery.traceSuccess p strategy state unwound sim c)
      (Recovery.traceSuccess p' strategy state unwound sim' c') := by
  obtain ⟨-⟩ := hsim
  unfold Recovery.traceSuccess
  rw [l.stack_eq h]
  exact l.trace h _

theorem traceFailure (h : R c c') (strategy : Strategy) (state : StateId) (unwound : Nat) :
    R (Recovery.traceFailure p strategy state unwound c)
      (Recovery.traceFailure p' strategy state unwound c') :=
  l.trace h _

/-! ## The strategies -/

theorem tryIds (h : R c c') (fuel : Nat) (strategy : Strategy) (state : StateId)
    (notice : Symbol V → Notice V) (hnotice : ∀ x, (notice x).isTrace = false)
    (ids : List SymbolId) :
    Agree (Attempt.Related R) (Recovery.tryIds p fuel strategy state notice ids c)
      (Recovery.tryIds p' fuel strategy state notice ids c') := by
  induction ids generalizing c c' with
  | nil => exact .ok (.failed h)
  | cons id ids ih =>
    refine (l.simulate (l.modifyHead h _) fuel).bind ?_
    rintro ⟨sim, c⟩ ⟨-, c'⟩ ⟨⟨hstream⟩, hc⟩
    dsimp only
    rcases sim.succeeded with fault | _ | _
    · exact .ok (.settled (.aborted hc))
    · exact ih hc
    · have htraced := l.traceSuccess hc (.intro hstream) strategy state 0
      exact .ok (.settled (.repaired (l.notifyHead htraced hnotice)))

theorem insertMissing (h : R c c') (fuel : Nat) (state : StateId) (ids : List SymbolId) :
    Agree (Attempt.Related R) (Recovery.insertMissing p fuel state ids c)
      (Recovery.insertMissing p' fuel state ids c') := by
  cases ids with
  | nil => exact .ok (.failed h)
  | cons first ids =>
    rw [Recovery.insertMissing, Recovery.insertMissing]
    refine Agree.bind_eq (by rw [l.stack_eq h]) fun top => ?_
    refine (l.interchangeable.insert (l.stream h) 0 _).toFueled.bind ?_
    intro stream stream' hstream
    dsimp only
    have htry := l.tryIds (l.of_stream h hstream) fuel .insertion state .inserted (fun _ => rfl)
      (first :: ids)
    refine htry.bind fun a a' ha => ?_
    -- The token that was tried is taken out of both streams.
    refine ha.orElse fun c c' hc => ?_
    refine (l.interchangeable.remove (l.stream hc) 0).toFueled.bind ?_
    rintro ⟨_, stream⟩ ⟨token, stream'⟩ ⟨rfl, hstream⟩
    exact .ok (.failed (l.traceFailure (l.of_stream hc hstream) _ _ _))

theorem replaceMisspelled (h : R c c') (fuel : Nat) (state : StateId) (ids : List SymbolId) :
    Agree (Attempt.Related R) (Recovery.replaceMisspelled p fuel state ids c)
      (Recovery.replaceMisspelled p' fuel state ids c') := by
  unfold Recovery.replaceMisspelled
  rw [l.peek?_eq h]
  cases ids with
  | nil => exact .ok (.failed h)
  | cons first ids =>
    cases c.stream.peek? 0 with
    | none => exact .ok (.failed h)
    | some token =>
      have htry := l.tryIds h fuel .replacement state .replaced (fun _ => rfl)
        ((first :: ids).filter (· != token.id))
      refine htry.bind fun a a' ha => ?_
      refine ha.orElse fun c c' hc => ?_
      exact .ok (.failed (l.traceFailure (l.modifyHead hc _) _ _ _))

theorem deleteUnexpected (h : R c c') (fuel : Nat) (state : StateId) :
    Agree (Attempt.Related R) (Recovery.deleteUnexpected p fuel state c)
      (Recovery.deleteUnexpected p' fuel state c') := by
  refine (l.interchangeable.rewind (l.stream h)).toFueled.bind fun stream stream' hstream => ?_
  refine (l.interchangeable.remove hstream 0).toFueled.bind ?_
  rintro ⟨_, stream⟩ ⟨token, stream'⟩ ⟨rfl, hstream⟩
  refine (l.simulate (l.of_stream h hstream) fuel).bind ?_
  rintro ⟨sim, c⟩ ⟨-, c'⟩ ⟨⟨hstream⟩, hc⟩
  dsimp only
  rcases sim.succeeded with fault | _ | _
  · exact .ok (.settled (.aborted hc))
  · refine (l.interchangeable.insert (l.stream hc) 0 token).toFueled.bind
      fun stream stream' hstream => ?_
    exact .ok (.failed (l.traceFailure (l.of_stream hc hstream) _ _ _))
  · have htraced := l.traceSuccess hc (.intro hstream) .deletion state 0
    exact .ok (.settled (.repaired (l.notify htraced rfl)))

theorem widenPhrase (h : R c c') (state : StateId) (unwound fuel : Nat) :
    Agree (Repair.Related R) (Recovery.widenPhrase p state unwound fuel c)
      (Recovery.widenPhrase p' state unwound fuel c') := by
  induction fuel generalizing c c' with
  | zero => exact .error _
  | succ fuel ih =>
    refine (l.simulate h fuel).bind ?_
    rintro ⟨sim, c⟩ ⟨-, c'⟩ ⟨⟨hstream⟩, hc⟩
    dsimp only
    rcases sim.succeeded with fault | _ | _
    · exact .ok (.aborted hc)
    · refine (l.interchangeable.remove (l.stream hc) 0).toFueled.bind ?_
      rintro ⟨_, stream⟩ ⟨token, stream'⟩ ⟨rfl, hstream⟩
      dsimp only
      split
      · exact .ok (.aborted (l.traceFailure (l.of_stream hc hstream) _ _ _))
      · refine Agree.bind_eq (by rw [l.stack_eq hc]) fun stack => ih ?_
        exact l.of_stack (l.of_stream hc hstream) stack
    · have htraced := l.traceSuccess hc (.intro hstream) .phrase state unwound
      have htop := congrArg ParseStack.topSymbol (l.stack_eq htraced)
      refine Agree.bind_eq (congrArg liftM htop) fun top => ?_
      exact .ok (.repaired (l.notify htraced rfl))

theorem replacePhrase (h : R c c') (fuel : Nat) (state : StateId) :
    Agree (Repair.Related R) (Recovery.replacePhrase p fuel state c)
      (Recovery.replacePhrase p' fuel state c') := by
  unfold Recovery.replacePhrase
  refine Agree.bind_eq (by rw [l.stack_eq h]) fun below => ?_
  dsimp only
  rw [l.tables_eq, l.peek?_eq h]
  cases p.tables.errorSymbol with
  | none => exact .ok (.aborted (l.traceFailure h _ _ _))
  | some error =>
    refine Agree.bind_eq (by rw [l.stack_eq h]) fun found => ?_
    cases found with
    | none =>
      dsimp only
      rw [l.stack_eq h]
      exact .ok (.aborted (l.traceFailure h _ _ _))
    | some found =>
      obtain ⟨depth, target⟩ := found
      dsimp only
      rw [l.stack_eq h]
      exact l.widenPhrase (l.push (l.of_stack h (c.stack.truncate depth)) target _) _ _ _

theorem recover (h : R c c') (fuel : Nat) (token : Symbol V) :
    Agree (Repair.Related R) (Recovery.recover p fuel token c)
      (Recovery.recover p' fuel token c') := by
  unfold Recovery.recover
  rw [l.tables_eq]
  split
  · exact .ok (.aborted h)
  · have hbuffering := l.interchangeable.setBuffering (l.stream h) true
    refine Agree.bind_eq (by rw [l.stack_eq h]) fun state => ?_
    refine (l.interchangeable.insert hbuffering 0 token).toFueled.bind
      fun stream stream' hstream => ?_
    refine Agree.bind_right (fun ids => ?_) _
    refine (l.insertMissing (l.of_stream h hstream) fuel state ids).bind fun a a' ha => ?_
    refine (ha.orElse fun c c' hc => l.replaceMisspelled hc fuel state ids).bind
      fun a a' ha => ?_
    refine (ha.orElse fun c c' hc => l.deleteUnexpected hc fuel state).bind fun a a' ha => ?_
    refine (ha.orFinally fun c c' hc => l.replacePhrase hc fuel state).bind fun r r' hr => ?_
    cases hr with
    | repaired hc =>
      have hpassing := l.interchangeable.setBuffering (l.stream hc) false
      exact .ok (.repaired (l.of_stream hc hpassing))
    | aborted hc => exact .ok (.aborted hc)

end RecoveryLockstep

end ShiftReduce
