import ShiftReduce.Proofs.Recovery.Invariants

/-!
# What recovery counts

Recovery counts its simulations, and it may make the stack deeper. What the parse has done is
counted by the parser alone: the tokens that it has shifted, its reductions, its syntax errors
and those that were repaired. `SameCounts` says that these are as before, and this is so at
every moment of recovery.
-/

namespace ShiftReduce

open ShiftReduce.Configuration

variable {σ V : Type} {p : Parser σ V} {fuel : Nat} {c c' c'' : Configuration σ V}
  {r : Repair σ V} {token : Symbol V}

/-- Two configurations that have counted the same, but for simulations and for the depth. -/
structure SameCounts (c c' : Configuration σ V) : Prop where
  tokensShifted_eq : c'.stats.tokensShifted = c.stats.tokensShifted
  reductions_eq : c'.stats.reductions = c.stats.reductions
  syntaxErrors_eq : c'.stats.syntaxErrors = c.stats.syntaxErrors
  errorsRecovered_eq : c'.stats.errorsRecovered = c.stats.errorsRecovered

namespace SameCounts

theorem refl (c : Configuration σ V) : SameCounts c c := ⟨rfl, rfl, rfl, rfl⟩

theorem trans (h : SameCounts c c') (h' : SameCounts c' c'') : SameCounts c c'' :=
  ⟨h'.tokensShifted_eq.trans h.tokensShifted_eq, h'.reductions_eq.trans h.reductions_eq,
    h'.syntaxErrors_eq.trans h.syntaxErrors_eq, h'.errorsRecovered_eq.trans h.errorsRecovered_eq⟩

/-- What is not counted may change. -/
theorem of_stats_eq (h : SameCounts c c') (hstats : c''.stats = c'.stats) : SameCounts c c'' := by
  constructor <;> rw [hstats]
  exacts [h.tokensShifted_eq, h.reductions_eq, h.syntaxErrors_eq, h.errorsRecovered_eq]

end SameCounts

namespace Configuration

/-- A simulation is counted in any case, if it comes to an end. -/
theorem simulate_counts {sim : Simulation V} (h : c.simulate p fuel = .ok (sim, c')) :
    SameCounts c c' := by
  obtain ⟨stream, -, h⟩ := bind_eq_ok.mp h
  obtain ⟨run, -, h⟩ := bind_eq_ok.mp h
  cases h
  exact ⟨rfl, rfl, rfl, rfl⟩

theorem Simulates.counts (h : c.Simulates p fuel c') : SameCounts c c' := by
  cases h with
  | before => exact .refl c
  | reading _ _ => exact ⟨rfl, rfl, rfl, rfl⟩

end Configuration

namespace Recovery

/-- Nothing that recovery does is counted as the work of the parser. -/
theorem stable_sameCounts (p : Parser σ V) (c : Configuration σ V) :
    Stable p (SameCounts c) fun _ => SameCounts c := by
  constructor
  case unwound => exact fun h _ => h.of_stats_eq rfl
  case entered => exact fun h _ _ _ => h.trans ⟨rfl, rfl, rfl, rfl⟩
  case widened => exact fun h _ _ => h.of_stats_eq rfl
  constructor
  case stream => exact fun h _ => h.of_stats_eq rfl
  case traced => exact fun h => h.of_stats_eq (trace_stats _ _ _)
  case told => exact fun h _ => h.of_stats_eq rfl
  case simulated => exact fun h hsim _ => h.trans (simulate_counts hsim)
  case faulted => exact fun h hsim _ => h.trans (simulate_counts hsim)
  case simulating => exact fun h hsim => .inl (h.trans hsim.counts)

theorem recover_counts (h : recover p fuel token c = .ok r) : SameCounts c r.configuration :=
  ((stable_sameCounts p c).recover_ends (.refl c) h).held.of_unhurt

/-- At every moment of recovery the counts are as they were before. -/
theorem Recovering.counts (h : Recovering p fuel token c c') : SameCounts c c' :=
  ((stable_sameCounts p c).recovering (.refl c) h).of_unhurt

end Recovery

end ShiftReduce
