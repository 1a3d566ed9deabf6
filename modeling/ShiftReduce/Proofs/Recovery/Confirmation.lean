import ShiftReduce.Proofs.LowestDepth
import ShiftReduce.Proofs.Recovery.Telling

/-!
# How repairs are confirmed

A strategy that succeeds has had a simulation from the stack that it leaves. Its trace comes right
behind what has been told when the simulation ended, and it says how many entries of that stack the
simulation has dropped. No other success is traced in the course of recovery.

* `Confirms`: a simulation, and what is traced of it.
* `confirms_of_simulate`: the difference that is traced is never less than zero, and it is the
  number of entries dropped.
* `Repair.Confirmed` and `Attempt.Confirmed`: what has been told, and the simulation behind it.
* `recover_confirmed`: all of recovery.
-/

namespace ShiftReduce

open ShiftReduce.Configuration Simulation

variable {σ V : Type} {p : Parser σ V} {fuel unwound : Nat} {c c' : Configuration σ V}
  {a a' : Attempt σ V} {r : Repair σ V} {strategy : Strategy} {state : StateId}
  {notice : Symbol V → Notice V} {ids : List SymbolId} {token : Symbol V}
  {moment : Configuration σ V → Prop}

def Notice.isSuccess : Notice V → Bool
  | trace (.recovery _ _ succeeded _ _) => succeeded
  | _ => false

/-- No success is traced in between. -/
def Unconfirmed (c c' : Configuration σ V) : Prop := Adds (fun n => n.isSuccess = false) c c'

theorem Notice.not_isSuccess_of_isRepair {n : Notice V} (h : n.isRepair = true) :
    n.isSuccess = false := by
  cases n <;> first | rfl | cases h

namespace Recovery

/-- A simulation that was made at some moment from a stack, has succeeded, and has told the last of
what had been told by then. It has left a trail up to its end on which so many entries of the stack
have been dropped, and these are all above its least depth. -/
inductive Confirms (p : Parser σ V) (moment : Configuration σ V → Prop) (told : List (Notice V))
    (stack : ParseStack V) (reduced : Nat) : Prop
  | intro {c c' : Configuration σ V} {fuel : Nat} {sim : Simulation V} {rewound s : TokenStream V}
      {earlier : List Simulator} {turn : Simulator.Turn} : moment c → c.stack = stack →
      c.simulate p fuel = .ok (sim, c') → sim.succeeded = .ok true → c'.notices.toList = told →
      c.stream.rewind = .ok rewound →
      Trail p.tables stack.states rewound (sim.simulator :: earlier) turn s →
      Ends p.tables turn s sim → reduced = dropCount stack.depth (sim.simulator :: earlier) →
      reduced + sim.simulator.lowestDepth = stack.depth →
      Confirms p moment told stack reduced

/-- The difference that is traced of a simulation is the number of entries that it has dropped. -/
theorem confirms_of_simulate {sim : Simulation V} (hmoment : moment c)
    (h : c.simulate p fuel = .ok (sim, c')) (hok : sim.succeeded = .ok true) :
    Confirms p moment c'.notices.toList c'.stack
      (c'.stack.depth - sim.simulator.lowestDepth) := by
  have hsimulate := h
  obtain ⟨rewound, hrewind, h⟩ := bind_eq_ok.mp h
  obtain ⟨_, hrun, h⟩ := bind_eq_ok.mp h
  obtain ⟨earlier, turn, s, htrail, hends⟩ := exists_trail hrun
  obtain ⟨_, _, hlast, hlowest⟩ := htrail.lowestDepth
  cases hlast
  have hdepth : c.stack.states.toList.length = c.stack.depth := by
    rw [Array.length_toList, ParseStack.size_states]
  have hcount := hlowest.dropCount_add
  rw [hdepth] at hcount
  rw [simulate_stack hsimulate]
  cases h
  exact .intro hmoment rfl hsimulate hok rfl (liftM_eq_ok.mp hrewind) htrail hends (by omega)
    (by omega)

end Recovery

open Recovery

/-! ## What has been told -/

/-- A repair, and what has been told before and with it. -/
inductive Repair.Confirmed (p : Parser σ V) (moment : Configuration σ V → Prop)
    (c : Configuration σ V) : Repair σ V → Prop
  | repaired {mid c' : Configuration σ V} {strategy : Strategy} {state : StateId}
      {unwound reduced : Nat} {reports : List (Notice V)} : Unconfirmed c mid →
      Confirms p moment mid.notices.toList c'.stack reduced →
      c'.notices.toList = mid.notices.toList ++
        (p.traced [.recovery strategy state true unwound reduced] ++ reports) →
      (∀ n ∈ reports, n.isSuccess = false) → Confirmed p moment c (.repaired c')
  | aborted {e : ParseError} {c' : Configuration σ V} : Unconfirmed c c' →
      Confirmed p moment c (.aborted e c')

/-- An attempt, and what has been told before and with its repair. -/
inductive Attempt.Confirmed (p : Parser σ V) (moment : Configuration σ V → Prop)
    (c : Configuration σ V) : Attempt σ V → Prop
  | settled {r : Repair σ V} : r.Confirmed p moment c → Confirmed p moment c (.settled r)
  | failed {c' : Configuration σ V} : Unconfirmed c c' → Confirmed p moment c (.failed c')

/-- A repair after something else has been told. -/
theorem Repair.Confirmed.after (h : r.Confirmed p moment c') (hadds : Unconfirmed c c') :
    r.Confirmed p moment c := by
  cases h with
  | repaired hmid hconfirms htold hreports =>
    exact .repaired (hadds.trans hmid) hconfirms htold hreports
  | aborted hmore => exact .aborted (hadds.trans hmore)

/-- An attempt after something else has been told. -/
theorem Attempt.Confirmed.after (h : a.Confirmed p moment c') (hadds : Unconfirmed c c') :
    a.Confirmed p moment c := by
  cases h with
  | settled hr => exact .settled (hr.after hadds)
  | failed hmore => exact .failed (hadds.trans hmore)

/-- An attempt after another one. -/
theorem Attempt.Confirmed.orElse {second : Configuration σ V → Fueled (Attempt σ V)}
    (ha : a.Confirmed p moment c) (h : a.orElse second = .ok a')
    (hsecond : ∀ c', a = .failed c' → second c' = .ok a' → a'.Confirmed p moment c') :
    a'.Confirmed p moment c := by
  cases ha with
  | settled hr =>
    cases h
    exact .settled hr
  | failed hadds => exact (hsecond _ rfl h).after hadds

namespace Recovery

/-! ## The strategies -/

/-- A simulation traces no success. -/
theorem simulate_unconfirmed {sim : Simulation V} (h : c.simulate p fuel = .ok (sim, c')) :
    Unconfirmed c c' :=
  .simulate (fun _ => rfl) h

/-- A failure is not a success. -/
theorem traceFailure_unconfirmed (p : Parser σ V) (strategy : Strategy) (state : StateId)
    (unwound : Nat) (c : Configuration σ V) :
    Unconfirmed c (traceFailure p strategy state unwound c) :=
  .trace c p rfl

/-- What is told of a repair that a simulation has confirmed. -/
theorem confirmed_of_simulate {sim : Simulation V} {reports : List (Notice V)}
    {d : Configuration σ V} (hmoment : moment c) (h : c.simulate p fuel = .ok (sim, c'))
    (hok : sim.succeeded = .ok true) (hstack : d.stack = c'.stack)
    (htold : d.notices.toList =
      (traceSuccess p strategy state unwound sim c').notices.toList ++ reports)
    (hreports : ∀ n ∈ reports, n.isRepair = true) :
    (Repair.repaired d).Confirmed p moment c := by
  rw [traceSuccess, notices_trace, List.append_assoc] at htold
  exact .repaired (simulate_unconfirmed h) (hstack ▸ confirms_of_simulate hmoment h hok) htold
    fun n hn => Notice.not_isSuccess_of_isRepair (hreports n hn)

/-- A repair that is told right behind its trace. -/
theorem confirmed_reporting {sim : Simulation V} {n : Notice V} (hmoment : moment c)
    (h : c.simulate p fuel = .ok (sim, c')) (hok : sim.succeeded = .ok true)
    (hn : n.isRepair = true) :
    (Repair.repaired ((traceSuccess p strategy state unwound sim c').notify n)).Confirmed p moment
      c :=
  confirmed_of_simulate hmoment h hok (trace_stack _ _ _) Array.toList_push
    (List.forall_mem_singleton.mpr hn)

/-- The first buffered token is told, if there is one. -/
theorem notifyHead_told (notice : Symbol V → Notice V) (hnotice : ∀ x, (notice x).isRepair = true)
    (c : Configuration σ V) : (notifyHead notice c).stack = c.stack ∧
      ∃ reports, (∀ n ∈ reports, n.isRepair = true) ∧
        (notifyHead notice c).notices.toList = c.notices.toList ++ reports := by
  unfold notifyHead
  split
  · rename_i x _
    exact ⟨rfl, [notice x], List.forall_mem_singleton.mpr (hnotice x), Array.toList_push⟩
  · exact ⟨rfl, [], by simp, (List.append_nil _).symm⟩

theorem tryIds_confirmed (h : tryIds p fuel strategy state notice ids c = .ok a)
    (hmoment : ∀ c', TryingIds p fuel strategy state notice ids c c' → moment c')
    (hnotice : ∀ x, (notice x).isRepair = true) : a.Confirmed p moment c := by
  induction ids generalizing c with
  | nil =>
    cases h
    exact .failed (.refl _)
  | cons id ids ih =>
    obtain ⟨⟨sim, c₁⟩, hsim, h⟩ := bind_eq_ok.mp h
    have hedited : Unconfirmed c (modifyHead ({ · with id }) c) := .of_eq rfl
    dsimp only at h
    split at h
    · rename_i hok
      cases h
      obtain ⟨hstack, reports, hreports, htold⟩ :=
        notifyHead_told notice hnotice (traceSuccess p strategy state 0 sim c₁)
      have hconfirmed := confirmed_of_simulate (hmoment _ (.simulating .before)) hsim hok
        (hstack.trans (trace_stack _ _ _)) htold hreports
      exact .settled (hconfirmed.after hedited)
    · rename_i hok
      have hrest := ih h fun c' hc' => hmoment c' (.next hsim hok hc')
      exact hrest.after (hedited.trans (simulate_unconfirmed hsim))
    · cases h
      exact .settled (.aborted (hedited.trans (simulate_unconfirmed hsim)))

theorem insertMissing_confirmed (h : insertMissing p fuel state ids c = .ok a)
    (hmoment : ∀ c', Inserting p fuel state ids c c' → moment c') : a.Confirmed p moment c := by
  cases ids with
  | nil =>
    cases h
    exact .failed (.refl _)
  | cons first rest =>
    obtain ⟨below, hbelow, h⟩ := bind_eq_ok.mp h
    obtain ⟨stream, hinsert, h⟩ := bind_eq_ok.mp h
    obtain ⟨tried, htry, h⟩ := bind_eq_ok.mp h
    rw [liftM_eq_ok] at hbelow hinsert
    have htried := tryIds_confirmed htry
      (fun c' hc' => hmoment c' (.trying rfl hbelow hinsert hc')) fun _ => rfl
    have hinserted : Unconfirmed c { c with stream } := .of_eq rfl
    refine (htried.orElse h fun c₁ _ h => ?_).after hinserted
    obtain ⟨⟨removed, stream'⟩, -, h⟩ := bind_eq_ok.mp h
    cases h
    have hremoved : Unconfirmed c₁ { c₁ with stream := stream' } := .of_eq rfl
    exact .failed (hremoved.trans (traceFailure_unconfirmed p _ _ _ _))

theorem replaceMisspelled_confirmed (h : replaceMisspelled p fuel state ids c = .ok a)
    (hmoment : ∀ c', Replacing p fuel state ids c c' → moment c') : a.Confirmed p moment c := by
  unfold replaceMisspelled at h
  split at h
  · cases h
    exact .failed (.refl _)
  · cases h
    exact .failed (.refl _)
  · rename_i ids _ token hne hpeek
    obtain ⟨tried, htry, h⟩ := bind_eq_ok.mp h
    have htried := tryIds_confirmed htry
      (fun c' hc' => hmoment c' (.trying hne hpeek hc')) fun _ => rfl
    refine htried.orElse h fun c₁ _ h => ?_
    cases h
    have hback : Unconfirmed c₁ (modifyHead ({ · with id := token.id }) c₁) := .of_eq rfl
    exact .failed (hback.trans (traceFailure_unconfirmed p _ _ _ _))

theorem deleteUnexpected_confirmed (h : deleteUnexpected p fuel state c = .ok a)
    (hmoment : ∀ c', Deleting p fuel state c c' → moment c') : a.Confirmed p moment c := by
  obtain ⟨stream, hrewind, h⟩ := bind_eq_ok.mp h
  obtain ⟨⟨token, stream'⟩, hremove, h⟩ := bind_eq_ok.mp h
  obtain ⟨⟨sim, c₁⟩, hsim, h⟩ := bind_eq_ok.mp h
  rw [liftM_eq_ok] at hrewind hremove
  have hdeleted : Unconfirmed c { c with stream := stream' } := .of_eq rfl
  dsimp only at h
  split at h
  · rename_i hok
    cases h
    have hsimulated := hmoment _ (.simulating hrewind hremove .before)
    exact .settled ((confirmed_reporting hsimulated hsim hok rfl).after hdeleted)
  · obtain ⟨stream'', -, h⟩ := bind_eq_ok.mp h
    cases h
    have hback : Unconfirmed c₁ { c₁ with stream := stream'' } := .of_eq rfl
    exact .failed ((hdeleted.trans (simulate_unconfirmed hsim)).trans
      (hback.trans (traceFailure_unconfirmed p _ _ _ _)))
  · cases h
    exact .settled (.aborted (hdeleted.trans (simulate_unconfirmed hsim)))

theorem widenPhrase_confirmed (h : widenPhrase p state unwound fuel c = .ok r)
    (hmoment : ∀ c', Widening p state unwound fuel c c' → moment c') :
    r.Confirmed p moment c := by
  -- By induction on the fuel. Only the last round has a success to trace.
  induction fuel generalizing c with
  | zero => cases h
  | succ fuel ih =>
    obtain ⟨⟨sim, c₁⟩, hsim, h⟩ := bind_eq_ok.mp h
    have hsimulated := simulate_unconfirmed hsim
    dsimp only at h
    split at h
    · cases h
      exact .aborted hsimulated
    · rename_i hok
      obtain ⟨top, -, h⟩ := bind_eq_ok.mp h
      cases h
      exact confirmed_reporting (hmoment _ (.simulating .before)) hsim hok rfl
    · rename_i hok
      obtain ⟨⟨discarded, stream⟩, hremove, h⟩ := bind_eq_ok.mp h
      rw [liftM_eq_ok] at hremove
      have hdiscarded : Unconfirmed c { c₁ with stream } := hsimulated.trans (.of_eq rfl)
      dsimp only at h
      split at h
      · cases h
        exact .aborted (hdiscarded.trans (traceFailure_unconfirmed p _ _ _ _))
      · rename_i heof
        obtain ⟨stack, hstack, h⟩ := bind_eq_ok.mp h
        rw [Bool.not_eq_true] at heof
        have hrest := ih h fun c' hc' =>
          hmoment c' (.next hsim hok hremove heof (liftM_eq_ok.mp hstack) hc')
        exact hrest.after (hdiscarded.trans (.of_eq rfl))

theorem replacePhrase_confirmed (h : replacePhrase p fuel state c = .ok r)
    (hmoment : ∀ c', ReplacingPhrase p fuel state c c' → moment c') : r.Confirmed p moment c := by
  obtain ⟨below, hbelow, h⟩ := bind_eq_ok.mp h
  rw [liftM_eq_ok] at hbelow
  dsimp only at h
  split at h
  · cases h
    exact .aborted (traceFailure_unconfirmed p _ _ _ _)
  · rename_i error herror
    obtain ⟨found, hfound, h⟩ := bind_eq_ok.mp h
    cases found with
    | none =>
      cases h
      exact .aborted (traceFailure_unconfirmed p _ _ _ _)
    | some found =>
      obtain ⟨depth, target⟩ := found
      have hwidened := widenPhrase_confirmed h fun c' hc' =>
        hmoment c' (.widening hbelow herror (liftM_eq_ok.mp hfound) hc')
      exact hwidened.after (.of_eq rfl)

/-! ## All strategies -/

theorem recover_confirmed (h : recover p fuel token c = .ok r) :
    r.Confirmed p (Recovering p fuel token c) c := by
  unfold recover at h
  split at h
  · cases h
    exact .aborted (.refl _)
  · rename_i heof
    rw [Bool.not_eq_true] at heof
    obtain ⟨state, htop, h⟩ := bind_eq_ok.mp h
    obtain ⟨stream, hinsert, h⟩ := bind_eq_ok.mp h
    obtain ⟨ids, hids, h⟩ := bind_eq_ok.mp h
    obtain ⟨inserted, hinserted, h⟩ := bind_eq_ok.mp h
    obtain ⟨replaced, hreplaced, h⟩ := bind_eq_ok.mp h
    obtain ⟨deleted, hdeleted, h⟩ := bind_eq_ok.mp h
    obtain ⟨done, hdone, h⟩ := bind_eq_ok.mp h
    have hopens : Opens p token c state ids { c with stream } :=
      ⟨heof, liftM_eq_ok.mp htop, liftM_eq_ok.mp hids, stream, liftM_eq_ok.mp hinsert, rfl⟩
    have hfirst := insertMissing_confirmed hinserted fun c' hc' =>
      show Recovering p fuel token c c' from .inserting hopens hc'
    have hsecond := hfirst.orElse hreplaced fun c₁ hfailed hnext => by
      subst hfailed
      exact replaceMisspelled_confirmed hnext fun c' hc' => .replacing hopens hinserted hc'
    have hthird := hsecond.orElse hdeleted fun c₂ hfailed hnext => by
      subst hfailed
      obtain ⟨c₁, rfl, hreplaced⟩ := Attempt.orElse_eq_failed hreplaced
      exact deleteUnexpected_confirmed hnext fun c' hc' =>
        .deleting hopens hinserted hreplaced hc'
    have hall : done.Confirmed p (Recovering p fuel token c) { c with stream } := by
      cases hthird with
      | settled hr =>
        cases hdone
        exact hr
      | @failed c₃ hadds =>
        obtain ⟨c₂, rfl, hdeleted⟩ := Attempt.orElse_eq_failed hdeleted
        obtain ⟨c₁, rfl, hreplaced⟩ := Attempt.orElse_eq_failed hreplaced
        exact (replacePhrase_confirmed hdone fun c' hc' =>
          .replacingPhrase hopens hinserted hreplaced hdeleted hc').after hadds
    -- All that is left is to leave the buffering mode, and this is not told.
    have hopened : Unconfirmed c { c with stream } := .of_eq rfl
    cases hall with
    | repaired hmid hconfirms htold hreports =>
      cases h
      exact .repaired (hopened.trans hmid) hconfirms htold hreports
    | aborted hadds =>
      cases h
      exact .aborted (hopened.trans hadds)

end Recovery

end ShiftReduce
