import ShiftReduce.Parser.Machine
import ShiftReduce.Proofs.Checked

/-!
# More fuel

Fuel only bounds how long a computation may go on. If it comes to a result, or breaks a
contract, it comes to the same with any more fuel: one computation `Prolongs` another if it is
the same or the other has run out of fuel, and what is put together from such computations is
again of the kind.

* `Prolongs.bind`: computations in steps, and `Prolongs.unique`: their results.
* `Recovery.recover_prolongs`, `Parser.step_prolongs` and `Parser.run_prolongs`: the parser.
* `Parser.step_unique` and `Parser.run_unique`: the fuel does not choose the result.
-/

namespace ShiftReduce

variable {α β σ V : Type}

/-- A computation with more fuel than another one, which has run out of it or has come to the
same. -/
def Prolongs (x y : Fueled α) : Prop := x = .error .outOfFuel ∨ y = x

namespace Prolongs

variable {x y : Fueled α}

theorem refl (x : Fueled α) : Prolongs x x := .inr rfl

theorem outOfFuel (y : Fueled α) : Prolongs (.error .outOfFuel) y := .inl rfl

theorem eq_ok {a : α} (h : Prolongs x y) (hx : x = .ok a) : y = .ok a := by
  rcases h with hout | rfl
  · rw [hout] at hx
    cases hx
  · exact hx

/-- Computations in two steps. -/
theorem bind {f g : α → Fueled β} (h : Prolongs x y) (hf : ∀ a, Prolongs (f a) (g a)) :
    Prolongs (x >>= f) (y >>= g) := by
  rcases h with rfl | rfl
  · exact outOfFuel _
  · cases y with
    | ok a => exact hf a
    | error e => exact refl _

/-- A first step that takes no fuel. -/
theorem bind_right {f g : α → Fueled β} (hf : ∀ a, Prolongs (f a) (g a)) (x : Fueled α) :
    Prolongs (x >>= f) (x >>= g) :=
  (refl x).bind hf

/-- The fuel does not choose the result. -/
theorem unique {f : Nat → Fueled α} (hf : ∀ {n m}, n ≤ m → Prolongs (f n) (f m)) {n m : Nat}
    {a b : α} (h : f n = .ok a) (h' : f m = .ok b) : a = b := by
  have hmost := (hf (Nat.le_max_left n m)).eq_ok h
  rw [(hf (Nat.le_max_right n m)).eq_ok h'] at hmost
  exact (Except.ok.inj hmost).symm

end Prolongs

variable {fuel fuel' : Nat}

/-! ## Simulations -/

theorem Simulator.advance_prolongs (h : fuel ≤ fuel') (t : PackedTables) (x : SymbolId)
    (sim : Simulator) : Prolongs (advance t x fuel sim) (advance t x fuel' sim) := by
  induction fuel generalizing fuel' sim with
  | zero => exact .outOfFuel _
  | succ fuel ih =>
    obtain ⟨fuel', rfl⟩ : ∃ k, fuel' = k + 1 := ⟨fuel' - 1, by omega⟩
    rw [advance, advance]
    split
    · exact .refl _
    · refine Prolongs.bind_right (fun action => ?_) _
      cases action with
      | reduce rule =>
        refine Prolongs.bind_right (fun found => ?_) _
        obtain ⟨action, sim⟩ := found
        cases action with
        | shift next => exact ih (by omega) _
        | _ => exact .refl _
      | _ => exact .refl _

theorem Simulation.runTokens_prolongs (h : fuel ≤ fuel') (t : PackedTables) (more : Nat)
    (sim : Simulator) (stream : TokenStream V) (lexical : List LexicalError) :
    Prolongs (runTokens t fuel more sim stream lexical)
      (runTokens t fuel' more sim stream lexical) := by
  induction more generalizing sim stream lexical with
  | zero =>
    rw [runTokens, runTokens]
    refine Prolongs.bind_right (fun delivery => ?_) _
    cases delivery.result with
    | error fault => exact .refl _
    | ok token =>
      refine (Simulator.advance_prolongs h t token.id sim).bind fun r => ?_
      obtain ⟨verdict, sim⟩ := r
      cases verdict <;> exact .refl _
  | succ more ih =>
    rw [runTokens, runTokens]
    refine Prolongs.bind_right (fun delivery => ?_) _
    dsimp only
    cases delivery.result with
    | error fault => exact .refl _
    | ok token =>
      refine (Simulator.advance_prolongs h t token.id sim).bind fun r => ?_
      obtain ⟨verdict, sim⟩ := r
      cases verdict with
      | shifted => exact ih sim _ _
      | _ => exact .refl _

theorem Configuration.simulate_prolongs (h : fuel ≤ fuel') (c : Configuration σ V)
    (p : Parser σ V) : Prolongs (c.simulate p fuel) (c.simulate p fuel') := by
  refine Prolongs.bind_right (fun stream => ?_) _
  exact (Simulation.runTokens_prolongs h _ _ _ _ _).bind fun _ => .refl _

/-! ## Recovery -/

namespace Recovery

variable {p : Parser σ V}

theorem tryIds_prolongs (h : fuel ≤ fuel') (strategy : Strategy) (state : StateId)
    (notice : Symbol V → Notice V) (ids : List SymbolId) (c : Configuration σ V) :
    Prolongs (tryIds p fuel strategy state notice ids c)
      (tryIds p fuel' strategy state notice ids c) := by
  induction ids generalizing c with
  | nil => exact .refl _
  | cons id ids ih =>
    refine (Configuration.simulate_prolongs h _ p).bind fun r => ?_
    obtain ⟨simulation, c⟩ := r
    dsimp only
    rcases simulation.succeeded with fault | _ | _
    · exact .refl _
    · exact ih c
    · exact .refl _

theorem orElse_prolongs (a : Attempt σ V)
    {second second' : Configuration σ V → Fueled (Attempt σ V)}
    (h : ∀ c, Prolongs (second c) (second' c)) :
    Prolongs (a.orElse second) (a.orElse second') := by
  cases a with
  | settled r => exact .refl _
  | failed c => exact h c

theorem orFinally_prolongs (a : Attempt σ V)
    {last last' : Configuration σ V → Fueled (Repair σ V)}
    (h : ∀ c, Prolongs (last c) (last' c)) : Prolongs (a.orFinally last) (a.orFinally last') := by
  cases a with
  | settled r => exact .refl _
  | failed c => exact h c

theorem insertMissing_prolongs (h : fuel ≤ fuel') (state : StateId) (ids : List SymbolId)
    (c : Configuration σ V) :
    Prolongs (insertMissing p fuel state ids c) (insertMissing p fuel' state ids c) := by
  cases ids with
  | nil => exact .refl _
  | cons first rest =>
    refine Prolongs.bind_right (fun below => ?_) _
    refine Prolongs.bind_right (fun stream => ?_) _
    exact (tryIds_prolongs h _ _ _ _ _).bind fun a => .refl _

theorem replaceMisspelled_prolongs (h : fuel ≤ fuel') (state : StateId) (ids : List SymbolId)
    (c : Configuration σ V) :
    Prolongs (replaceMisspelled p fuel state ids c) (replaceMisspelled p fuel' state ids c) := by
  unfold replaceMisspelled
  split
  · exact .refl _
  · exact .refl _
  · exact (tryIds_prolongs h _ _ _ _ _).bind fun a => .refl _

theorem deleteUnexpected_prolongs (h : fuel ≤ fuel') (state : StateId) (c : Configuration σ V) :
    Prolongs (deleteUnexpected p fuel state c) (deleteUnexpected p fuel' state c) := by
  refine Prolongs.bind_right (fun stream => ?_) _
  refine Prolongs.bind_right (fun removed => ?_) _
  exact (Configuration.simulate_prolongs h _ p).bind fun r => .refl _

theorem widenPhrase_prolongs (h : fuel ≤ fuel') (state : StateId) (unwound : Nat)
    (c : Configuration σ V) :
    Prolongs (widenPhrase p state unwound fuel c) (widenPhrase p state unwound fuel' c) := by
  induction fuel generalizing fuel' c with
  | zero => exact .outOfFuel _
  | succ fuel ih =>
    obtain ⟨fuel', rfl⟩ : ∃ k, fuel' = k + 1 := ⟨fuel' - 1, by omega⟩
    have hle : fuel ≤ fuel' := by omega
    rw [widenPhrase, widenPhrase]
    refine (Configuration.simulate_prolongs hle _ p).bind fun r => ?_
    obtain ⟨simulation, c⟩ := r
    dsimp only
    rcases simulation.succeeded with fault | _ | _
    · exact .refl _
    · refine Prolongs.bind_right (fun removed => ?_) _
      split
      · exact .refl _
      · exact Prolongs.bind_right (fun stack => ih hle _) _
    · exact .refl _

theorem replacePhrase_prolongs (h : fuel ≤ fuel') (state : StateId) (c : Configuration σ V) :
    Prolongs (replacePhrase p fuel state c) (replacePhrase p fuel' state c) := by
  refine Prolongs.bind_right (fun below => ?_) _
  dsimp only
  split
  · exact .refl _
  · refine Prolongs.bind_right (fun found => ?_) _
    cases found with
    | none => exact .refl _
    | some found => exact widenPhrase_prolongs h _ _ _

theorem recover_prolongs (h : fuel ≤ fuel') (token : Symbol V) (c : Configuration σ V) :
    Prolongs (recover p fuel token c) (recover p fuel' token c) := by
  unfold recover
  split
  · exact .refl _
  · refine Prolongs.bind_right (fun state => ?_) _
    refine Prolongs.bind_right (fun stream => ?_) _
    refine Prolongs.bind_right (fun ids => ?_) _
    refine (insertMissing_prolongs h _ _ _).bind fun inserted => ?_
    refine (orElse_prolongs inserted (replaceMisspelled_prolongs h _ _)).bind fun replaced => ?_
    refine (orElse_prolongs replaced (deleteUnexpected_prolongs h _)).bind fun deleted => ?_
    exact (orFinally_prolongs deleted (replacePhrase_prolongs h _)).bind fun r => .refl _

end Recovery

/-! ## The parser -/

namespace Parser

variable {p : Parser σ V} {token : Symbol V} {c : Configuration σ V} {q q₁ q₂ : Progress σ V}
  {outcome outcome' : Outcome σ V}

theorem repair_prolongs (h : fuel ≤ fuel') (token : Symbol V) (c : Configuration σ V) :
    Prolongs (p.repair fuel token c) (p.repair fuel' token c) := by
  unfold repair
  dsimp only
  split
  · exact .refl _
  · split
    · exact .refl _
    · exact (Recovery.recover_prolongs h _ _).bind fun r => .refl _

theorem step_prolongs (h : fuel ≤ fuel') (token : Symbol V) (c : Configuration σ V) :
    Prolongs (p.step fuel token c) (p.step fuel' token c) := by
  refine Prolongs.bind_right (fun entry => ?_) _
  refine Prolongs.bind_right (fun action => ?_) _
  cases action with
  | error => exact repair_prolongs h token c
  | _ => exact .refl _

theorem run_prolongs (h : fuel ≤ fuel') (q : Progress σ V) :
    Prolongs (p.run fuel q) (p.run fuel' q) := by
  induction fuel generalizing fuel' q with
  | zero =>
    cases q with
    | finished result c =>
      rw [run, run]
      exact .refl _
    | running token c => exact .outOfFuel _
  | succ fuel ih =>
    cases q with
    | finished result c =>
      rw [run, run]
      exact .refl _
    | running token c =>
      obtain ⟨fuel', rfl⟩ : ∃ k, fuel' = k + 1 := ⟨fuel' - 1, by omega⟩
      have hle : fuel ≤ fuel' := by omega
      exact (step_prolongs hle token c).bind fun q => ih hle q

/-- A step that is made with different fuel is the same. -/
theorem step_unique (h : p.step fuel token c = .ok q₁) (h' : p.step fuel' token c = .ok q₂) :
    q₁ = q₂ :=
  Prolongs.unique (step_prolongs · token c) h h'

/-- A run that ends with different fuel has the same outcome. -/
theorem run_unique (h : p.run fuel q = .ok outcome) (h' : p.run fuel' q = .ok outcome') :
    outcome = outcome' :=
  Prolongs.unique (run_prolongs · q) h h'

end Parser

end ShiftReduce
