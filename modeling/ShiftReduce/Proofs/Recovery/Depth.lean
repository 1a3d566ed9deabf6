import ShiftReduce.Proofs.MoreFuel
import ShiftReduce.Proofs.Recovery.Invariants

/-!
# The greatest depth in recovery

Recovery pushes one entry at most, the error symbol, and all that it does otherwise leaves the
greatest depth alone. So what it has noted in the end is what had been noted before, or else the
depth under the error symbol, which was there at some moment.

* `recover_cases` and `recover_eq_of_failed`: recovery by edits, and recovery by a phrase.
* `replacePhrase_raises` and `recover_raises`: where the greatest depth comes from.
* `ReplacingPhrase.maxDepth_le` and `Recovering.maxDepth_le`: at no moment is it greater than in
  the end.
-/

namespace ShiftReduce

open ShiftReduce.Configuration

variable {σ V : Type} {p : Parser σ V} {fuel fuel' unwound m : Nat}
  {c c' c₀ c₁ c₂ c₃ : Configuration σ V} {token : Symbol V} {r : Repair σ V} {state : StateId}
  {ids : List SymbolId} {P : Configuration σ V → Prop} {F : ScanError → Configuration σ V → Prop}

theorem Configuration.push_maxDepth (c : Configuration σ V) (state : StateId) (x : Symbol V) :
    (c.push state x).stats.maxDepth =
      max c.stats.maxDepth (c.push state x).stack.depth := rfl

/-- A repair behind which the stream passes through again. -/
def Repair.released : Repair σ V → Repair σ V
  | .repaired c => .repaired { c with stream := c.stream.setBuffering false }
  | .aborted e c => .aborted e c

@[simp] theorem Repair.released_stats (r : Repair σ V) :
    r.released.configuration.stats = r.configuration.stats := by
  cases r <;> rfl

/-- The greatest depth that has been noted is the same, or that of some moment. -/
def Raises (moment : Configuration σ V → Prop) (c c' : Configuration σ V) : Prop :=
  c'.stats.maxDepth = c.stats.maxDepth ∨
    ∃ m, moment m ∧ c'.stats.maxDepth = max c.stats.maxDepth m.stack.depth

theorem Raises.le {moment : Configuration σ V → Prop} (h : Raises moment c c') :
    c.stats.maxDepth ≤ c'.stats.maxDepth := by
  rcases h with heq | ⟨m, -, heq⟩
  · exact Nat.le_of_eq heq.symm
  · exact heq ▸ Nat.le_max_left _ _

namespace Recovery

/-! ## Edits and phrases -/

/-- Where all edits fail, recovery is the replacement of a phrase. -/
theorem recover_eq_of_failed (hopens : Opens p token c state ids c₀)
    (hinsert : insertMissing p fuel state ids c₀ = .ok (.failed c₁))
    (hreplace : replaceMisspelled p fuel state ids c₁ = .ok (.failed c₂))
    (hdelete : deleteUnexpected p fuel state c₂ = .ok (.failed c₃)) :
    recover p fuel token c = do return (← replacePhrase p fuel state c₃).released := by
  obtain ⟨stream, hstream, rfl⟩ := hopens.opened_eq
  unfold recover
  rw [if_neg (by rw [hopens.not_eof]; exact Bool.false_ne_true)]
  simp only [hopens.topState_eq, liftM_ok, ok_bind, hstream, hopens.candidates_eq, hinsert,
    Attempt.orElse, hreplace, hdelete, Attempt.orFinally]
  refine bind_congr fun r => ?_
  cases r <;> rfl

/-- Recovery ends as edits end, or else all of them have failed and a phrase has been replaced. -/
theorem recover_cases (hs : EditStable p P F) (hP : P c) (h : recover p fuel token c = .ok r) :
    r.Ends P F ∨ ∃ state ids c₀ c₁ c₂ c₃ r', Opens p token c state ids c₀ ∧
      insertMissing p fuel state ids c₀ = .ok (.failed c₁) ∧
      replaceMisspelled p fuel state ids c₁ = .ok (.failed c₂) ∧
      deleteUnexpected p fuel state c₂ = .ok (.failed c₃) ∧ P c₃ ∧
      replacePhrase p fuel state c₃ = .ok r' ∧ r = r'.released := by
  unfold recover at h
  split at h
  · cases h
    exact .inl (.givenUp hP)
  · rename_i heof
    rw [Bool.not_eq_true] at heof
    obtain ⟨state, htop, h⟩ := bind_eq_ok.mp h
    obtain ⟨stream, hinsert, h⟩ := bind_eq_ok.mp h
    obtain ⟨ids, hids, h⟩ := bind_eq_ok.mp h
    obtain ⟨inserted, hinserted, h⟩ := bind_eq_ok.mp h
    obtain ⟨replaced, hreplaced, h⟩ := bind_eq_ok.mp h
    obtain ⟨deleted, hdeleted, h⟩ := bind_eq_ok.mp h
    obtain ⟨r', hdone, h⟩ := bind_eq_ok.mp h
    have hopens : Opens p token c state ids { c with stream } :=
      ⟨heof, liftM_eq_ok.mp htop, liftM_eq_ok.mp hids, stream, liftM_eq_ok.mp hinsert, rfl⟩
    have hopened : P { c with stream } := hs.opened hP (liftM_eq_ok.mp hinsert)
    have hreleased : r = r'.released := by
      cases r' <;> exact (Except.ok.inj h).symm
    -- A phrase is replaced only if the three edits have failed.
    cases hs.edits hopened hinserted hreplaced hdeleted with
    | settled hr =>
      cases hdone
      subst hreleased
      left
      cases hr with
      | repaired hP => exact .repaired (hs.stream hP rfl)
      | givenUp hP => exact .givenUp hP
      | fault hF => exact .fault hF
    | @failed c₃ hfailed =>
      obtain ⟨c₂, rfl, hdeleted⟩ := Attempt.orElse_eq_failed hdeleted
      obtain ⟨c₁, rfl, hreplaced⟩ := Attempt.orElse_eq_failed hreplaced
      exact .inr ⟨state, ids, _, c₁, c₂, c₃, r', hopens, hinserted, hreplaced, hdeleted, hfailed,
        hdone, hreleased⟩

/-! ## What leaves the greatest depth alone -/

theorem simulate_maxDepth {sim : Simulation V} (h : c.simulate p fuel = .ok (sim, c')) :
    c'.stats.maxDepth = c.stats.maxDepth := by
  obtain ⟨stream, -, h⟩ := bind_eq_ok.mp h
  obtain ⟨run, -, h⟩ := bind_eq_ok.mp h
  cases h
  rfl

/-- All that is done to edit a token or to widen a phrase leaves the greatest depth alone. -/
theorem widenStable_maxDepth (p : Parser σ V) (m : Nat) :
    WidenStable p (fun c => c.stats.maxDepth = m) fun _ c => c.stats.maxDepth = m := by
  constructor
  case widened => exact fun h _ _ => h
  constructor
  case stream => exact fun h _ => h
  case traced => exact fun h => (congrArg Stats.maxDepth (trace_stats _ _ _)).trans h
  case told => exact fun h _ => h
  case simulated => exact fun h hsim _ => (simulate_maxDepth hsim).trans h
  case faulted => exact fun h hsim _ => (simulate_maxDepth hsim).trans h
  case simulating =>
    intro c c' fuel h hsim
    cases hsim with
    | before => exact .inl h
    | reading _ _ => exact .inl h

/-! ## Where the greatest depth comes from -/

/-- When a phrase is replaced, the error symbol is pushed or nothing is. -/
theorem replacePhrase_raises (h : replacePhrase p fuel state c = .ok r) :
    Raises (ReplacingPhrase p fuel state c) c r.configuration := by
  obtain ⟨below, hbelow, h⟩ := bind_eq_ok.mp h
  dsimp only at h
  split at h
  · cases h
    exact .inl (congrArg Stats.maxDepth (trace_stats _ _ _))
  · rename_i error herror
    obtain ⟨found, hfound, h⟩ := bind_eq_ok.mp h
    cases found with
    | none =>
      cases h
      exact .inl (congrArg Stats.maxDepth (trace_stats _ _ _))
    | some found =>
      obtain ⟨kept, target⟩ := found
      rw [liftM_eq_ok] at hbelow hfound
      have hsame := Held.of_unhurt
        ((widenStable_maxDepth p _).widenPhrase rfl (depth_phrase hfound) h).held
      refine .inr ⟨({ c with stack := c.stack.truncate kept } : Configuration σ V).push target
        (phraseSymbol error c.stack kept (((c.stream.peek? 0).map Symbol.start).getD below.stop)),
        .widening hbelow herror hfound ?_, hsame⟩
      -- The error symbol is on the stack before the first simulation.
      cases fuel with
      | zero => cases h
      | succ fuel => exact .simulating .before

theorem recover_raises (h : recover p fuel token c = .ok r) :
    Raises (Recovering p fuel token c) c r.configuration := by
  have hs := (widenStable_maxDepth p c.stats.maxDepth).toEditStable
  rcases recover_cases hs rfl h with hends | ⟨state, ids, c₀, c₁, c₂, c₃, r', hopens, hinsert,
    hreplace, hdelete, hsame, hphrase, rfl⟩
  · exact .inl (Held.of_unhurt hends.held)
  · rw [Raises, Repair.released_stats, ← hsame]
    rcases replacePhrase_raises hphrase with heq | ⟨pushed, hpushed, heq⟩
    · exact .inl heq
    · exact .inr ⟨pushed, .replacingPhrase hopens hinsert hreplace hdelete hpushed, heq⟩

/-! ## Moments -/

/-- The replacement of a phrase that returns notes no greater depth on its way. -/
theorem ReplacingPhrase.maxDepth_le (hmoment : ReplacingPhrase p fuel' state c c')
    (h : replacePhrase p fuel state c = .ok r) :
    c'.stats.maxDepth ≤ r.configuration.stats.maxDepth := by
  cases hmoment with
  | unwinding _ _ _ => exact (replacePhrase_raises h).le
  | @widening below error kept target _ hbelow herror hfound hwidening =>
    have hmoment := Held.of_unhurt
      ((widenStable_maxDepth p _).widening rfl (depth_phrase hfound) hwidening)
    rw [replacePhrase, hbelow] at h
    simp only [liftM_ok, ok_bind, herror, hfound] at h
    have hends := Held.of_unhurt
      ((widenStable_maxDepth p _).widenPhrase rfl (depth_phrase hfound) h).held
    exact Nat.le_of_eq (hmoment.trans hends.symm)
  | done hdone =>
    cases Prolongs.unique (replacePhrase_prolongs · state c) h hdone
    exact Nat.le_refl _

/-- Recovery that returns notes no greater depth on its way. -/
theorem Recovering.maxDepth_le (hmoment : Recovering p fuel' token c c')
    (h : recover p fuel token c = .ok r) :
    c'.stats.maxDepth ≤ r.configuration.stats.maxDepth := by
  have hs := (widenStable_maxDepth p c.stats.maxDepth).toEditStable
  have hends := (recover_raises h).le
  have hopened : ∀ {state ids c₀}, Opens p token c state ids c₀ →
      c₀.stats.maxDepth = c.stats.maxDepth := fun hopens => hs.opens rfl hopens
  cases hmoment with
  | buffering _ => exact hends
  | inserting hopens hinserting =>
    rwa [Held.of_unhurt (hs.inserting (hopened hopens) hinserting)]
  | replacing hopens hinsert hreplacing =>
    have hinserted := (hs.insertMissing (hopened hopens) hinsert).of_failed
    rwa [Held.of_unhurt (hs.replacing hinserted hreplacing)]
  | deleting hopens hinsert hreplace hdeleting =>
    have hinserted := (hs.insertMissing (hopened hopens) hinsert).of_failed
    have hreplaced := (hs.replaceMisspelled hinserted hreplace).of_failed
    rwa [Held.of_unhurt (hs.deleting hreplaced hdeleting)]
  | replacingPhrase hopens hinsert hreplace hdelete hphrase =>
    -- With fuel for both, what has returned has replaced the same phrase.
    have hleft := Nat.le_max_left fuel fuel'
    have hright := Nat.le_max_right fuel fuel'
    have hreturns := (recover_prolongs hleft token c).eq_ok h
    rw [recover_eq_of_failed hopens ((insertMissing_prolongs hright _ _ _).eq_ok hinsert)
      ((replaceMisspelled_prolongs hright _ _ _).eq_ok hreplace)
      ((deleteUnexpected_prolongs hright _ _).eq_ok hdelete)] at hreturns
    obtain ⟨r', hreplaced, hreleased⟩ := bind_eq_ok.mp hreturns
    cases hreleased
    rw [Repair.released_stats]
    exact hphrase.maxDepth_le hreplaced
  | done hdone =>
    cases Prolongs.unique (recover_prolongs · token c) h hdone
    exact Nat.le_refl _

end Recovery

end ShiftReduce
