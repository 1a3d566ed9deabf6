import ShiftReduce.Proofs.Replay
import ShiftReduce.Proofs.Stream.Feed

/-!
# Simulations with a narrower window

A simulation with a narrow window does what one with a wider window does, token by token, until its
own window is full; and then it succeeds. So it comes to the same, or it succeeds before.

* `Simulation.Milder`: the answer, the least depth and the tokens read, compared.
* `Proceeds.milder`: two simulations side by side.
* `runWith_milder`: whole simulations, whatever the simulators have been used for before.
-/

namespace ShiftReduce

variable {V : Type} {t : PackedTables} {x : SymbolId} {rule : RuleId} {found : Action}
  {fuel more more' : Nat} {v : Verdict} {sim sim' : Simulator}

/-! ## Least depths only go down -/

namespace Simulator

theorem lowestDepth_reduce_le (h : Simulator.reduce t rule sim = .ok (found, sim')) :
    sim'.lowestDepth ≤ sim.lowestDepth := by
  obtain ⟨info, -, ⟨-, -, rfl⟩ | ⟨base, rest, -, -, -, hlowest⟩⟩ := reduce_eq_ok h
  · exact Nat.le_refl _
  · rw [hlowest]
    exact Nat.min_le_left _ _

theorem lowestDepth_advance_le (h : advance t x fuel sim = .ok (v, sim')) :
    sim'.lowestDepth ≤ sim.lowestDepth := by
  induction fuel generalizing sim with
  | zero => cases h
  | succ fuel ih =>
    unfold advance at h
    split at h
    · cases h
      exact Nat.le_refl _
    · obtain ⟨action, -, h⟩ := bind_eq_ok.mp h
      cases action with
      | shift target | accept | error =>
        cases h
        exact Nat.le_refl _
      | reduce rule =>
        obtain ⟨⟨found, mid⟩, hreduce, h⟩ := bind_eq_ok.mp h
        have hmid := lowestDepth_reduce_le (liftM_eq_ok.mp hreduce)
        cases found with
        | shift target => exact Nat.le_trans (ih h) hmid
        | accept | reduce _ | error =>
          cases h
          exact hmid

end Simulator

namespace Simulation

variable {s s' : TokenStream V} {lexical lexical' : List LexicalError} {run run' : Simulation V}
  {base : Array StateId}

theorem Proceeds.lowestDepth_le (h : Proceeds t fuel more sim s lexical run) :
    run.simulator.lowestDepth ≤ sim.lowestDepth := by
  induction h with
  | faulty => exact Nat.le_refl _
  | last _ _ hadvance _ => exact Simulator.lowestDepth_advance_le hadvance
  | further _ _ hadvance _ ih =>
    exact Nat.le_trans ih (Simulator.lowestDepth_advance_le hadvance)

/-! ## Two simulations side by side -/

/-- How many deliveries a simulation has had, from the mark on. -/
def deliveries (run : Simulation V) : Nat :=
  match run.succeeded with
  | .ok _ => run.stream.read
  | .error _ => run.stream.read + 1

/-- A simulation has had at least the delivery that it has begun with. -/
theorem Proceeds.read_lt (h : Proceeds t fuel more sim s lexical run) :
    s.read < run.deliveries := by
  induction h with
  | faulty hnext _ =>
    have hread := TokenStream.read_le_of_nextBuffered hnext
    obtain ⟨hahead, -⟩ := TokenStream.readAhead_nextBuffered hnext hread
    exact Nat.lt_succ_of_le hahead.read_le
  | last hnext htoken _ _ =>
    obtain ⟨-, hmoved⟩ := (TokenStream.nextBuffered_feed hnext).2.1 _ htoken
    exact Nat.lt_of_succ_le (Nat.le_of_eq hmoved.symm)
  | further hnext htoken _ _ ih =>
    obtain ⟨-, hmoved⟩ := (TokenStream.nextBuffered_feed hnext).2.1 _ htoken
    omega

/-- When a simulation has an answer, its stream still has what it had to deliver. -/
theorem Proceeds.feed_eq {ok : Bool} (h : Proceeds t fuel more sim s lexical run)
    (hok : run.succeeded = .ok ok) : run.stream.feed = s.feed := by
  induction h with
  | faulty => cases hok
  | last hnext htoken _ _ => exact ((TokenStream.nextBuffered_feed hnext).2.1 _ htoken).1
  | further hnext htoken _ _ ih =>
    exact (ih hok).trans ((TokenStream.nextBuffered_feed hnext).2.1 _ htoken).1

/-- A simulation that comes to the same as another one or succeeds before. It has not eaten further
into its base, and it has not read more. -/
structure Milder (run run' : Simulation V) : Prop where
  succeeded : run.succeeded = .ok true ∨ run.succeeded = run'.succeeded
  lowest_le : run'.simulator.lowestDepth ≤ run.simulator.lowestDepth
  read_le : run.stream.read ≤ run'.stream.read

/-- What another simulation comes to with a wider window, from an equal stack and over a stream
that delivers the same. -/
theorem Proceeds.milder (h : Proceeds t fuel more' sim' s' lexical' run') (halike : sim'.Alike sim)
    (hmore : more ≤ more') (hmode : s.buffering = true) (hread : s.read ≤ s.buffered.length)
    (hroom : s.read + more + 1 < s.buffer.capacity) (hcursor : s.read = s'.read)
    (hfeed : ∀ i < run'.deliveries, s.feed.get i = s'.feed.get i) (lexical : List LexicalError) :
    ∃ run, Proceeds t fuel more sim s lexical run ∧ run.Milder run' := by
  -- By induction on the simulation with the wider window, which the other one follows.
  induction h generalizing sim s more lexical with
  | @faulty more' sim' s' lexical' d' fault hnext' hfault =>
    have hall : Proceeds t fuel more' sim' s' lexical' _ := .faulty hnext' hfault
    obtain ⟨d, hnext, hresult⟩ :=
      TokenStream.nextBuffered_of_feed hnext' hmode hread (by omega) hcursor (hfeed _ hall.read_lt)
    rw [hfault] at hresult
    refine ⟨_, .faulty hnext hresult, .inr rfl, Nat.le_of_eq halike.lowest_eq.symm, ?_⟩
    rw [(TokenStream.nextBuffered_feed hnext).2.2 _ hresult,
      (TokenStream.nextBuffered_feed hnext').2.2 _ hfault, hcursor]
  | @last more' sim' mid' s' lexical' d' token v hnext' htoken hadvance' hlast =>
    have hall : Proceeds t fuel more' sim' s' lexical' _ := .last hnext' htoken hadvance' hlast
    obtain ⟨d, hnext, hresult⟩ :=
      TokenStream.nextBuffered_of_feed hnext' hmode hread (by omega) hcursor (hfeed _ hall.read_lt)
    rw [htoken] at hresult
    obtain ⟨⟨_, mid⟩, hadvance, rfl, hmid⟩ := (halike.advance t token.id fuel).exists_ok hadvance'
    refine ⟨_, .last hnext hresult hadvance fun hv => Nat.le_zero.mp (hlast hv ▸ hmore), .inr rfl,
      Nat.le_of_eq hmid.lowest_eq.symm, ?_⟩
    rw [((TokenStream.nextBuffered_feed hnext).2.1 _ hresult).2,
      ((TokenStream.nextBuffered_feed hnext').2.1 _ htoken).2, hcursor]
  | @further more' sim' mid' s' lexical' d' token run' hnext' htoken hadvance' hrest ih =>
    have hall : Proceeds t fuel (more' + 1) sim' s' lexical' run' :=
      .further hnext' htoken hadvance' hrest
    obtain ⟨d, hnext, hresult⟩ :=
      TokenStream.nextBuffered_of_feed hnext' hmode hread (by omega) hcursor (hfeed _ hall.read_lt)
    rw [htoken] at hresult
    obtain ⟨⟨_, mid⟩, hadvance, rfl, hmid⟩ := (halike.advance t token.id fuel).exists_ok hadvance'
    obtain ⟨hstay, hmoved⟩ := (TokenStream.nextBuffered_feed hnext).2.1 _ hresult
    obtain ⟨hstay', hmoved'⟩ := (TokenStream.nextBuffered_feed hnext').2.1 _ htoken
    have hread' := TokenStream.read_le_of_nextBuffered hnext'
    obtain ⟨hahead', -⟩ := TokenStream.readAhead_nextBuffered hnext' hread'
    cases more with
    -- The narrower window is full.
    | zero =>
      obtain ⟨hahead, -⟩ := hrest.passes.readAhead hahead'.buffering hahead'.cursor_le
      refine ⟨_, .last hnext hresult hadvance fun _ => rfl, .inl rfl, ?_, ?_⟩
      · exact Nat.le_trans hrest.lowestDepth_le (Nat.le_of_eq hmid.lowest_eq.symm)
      · rw [hmoved, hcursor, ← hmoved']
        exact hahead.read_le
    | succ more =>
      obtain ⟨hahead, -⟩ := TokenStream.readAhead_nextBuffered hnext hread
      have hcapacity := hahead.capacity_eq
      have hless : more ≤ more' := Nat.le_of_succ_le_succ hmore
      obtain ⟨run, hrun, hmilder⟩ := ih hmid hless hahead.buffering hahead.cursor_le (by omega)
        (by rw [hmoved, hmoved', hcursor]) (by rwa [hstay, hstay']) (lexical ++ d.lexical)
      exact ⟨run, .further hnext hresult hadvance hrun, hmilder⟩

/-- A new simulator is one that has been used for nothing. -/
theorem run_eq_runWith (t : PackedTables) (fuel : Nat) (base : Array StateId) (s : TokenStream V) :
    Simulation.run t fuel base s = runWith t fuel ⟨.empty, 0⟩ base s :=
  rfl

/-- A simulation with a narrower window, over a stream that delivers what the other one has had
delivered. -/
theorem runWith_milder {used used' : Simulator} (h : runWith t fuel used' base s' = .ok run')
    (hmode : s.buffering = true) (hread : s.read = 0) (hread' : s'.read = 0) (hs : s.Spacious)
    (hwindow : s.window ≤ s'.window)
    (hfeed : ∀ i < run'.deliveries, s.feed.get i = s'.feed.get i) :
    ∃ run, runWith t fuel used base s = .ok run ∧ run.Milder run' := by
  have hroom := hs.room
  have hpos := hs.window_pos
  have hquota : s.window - s.read - 1 ≤ s'.window - s'.read - 1 := by omega
  obtain ⟨run, hrun, hmilder⟩ := (proceeds_of_runTokens h).milder
    (Simulator.alike_load used' used base) hquota hmode (by omega) (by omega) (by omega) hfeed []
  exact ⟨run, hrun.runTokens_eq, hmilder⟩

end Simulation

end ShiftReduce
