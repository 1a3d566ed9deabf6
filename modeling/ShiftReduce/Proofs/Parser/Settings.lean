import ShiftReduce.Proofs.Parser.Lockstep
import ShiftReduce.Proofs.Parser.Moments

/-!
# Other settings

Recovery and the moves of a parser look at its tables and at whether they are traced, and at no
other setting. So a parser with other settings does the same, as long as both trace or neither
does, until it comes to a syntax error and the settings decide what is to be done about it.

* `recoveryLockstep_withSettings`: both parsers do the same to one configuration.
* `Recovery.recover_withSettings` and `Recovery.Recovering.withSettings`: recovery and its moments.
-/

namespace ShiftReduce

open ShiftReduce.Configuration

variable {σ V : Type} {p : Parser σ V} {s : Settings} {fuel : Nat} {c c' : Configuration σ V}

def Parser.withSettings (p : Parser σ V) (s : Settings) : Parser σ V := { p with settings := s }

theorem Configuration.trace_withSettings (h : s.trace = p.settings.trace) (c : Configuration σ V)
    (event : TraceEvent) : c.trace (p.withSettings s) event = c.trace p event := by
  rw [trace, trace, ← h]
  rfl

/-- Parsers with different settings do the same to one and the same configuration. -/
theorem recoveryLockstep_withSettings (h : s.trace = p.settings.trace) :
    RecoveryLockstep p (p.withSettings s) Eq Eq where
  tables_eq := rfl
  actions_eq := rfl
  stack_eq hc := by rw [hc]
  memory_eq hc := by rw [hc]
  of_stack hc _ := by rw [hc]
  of_memory hc _ := by rw [hc]
  count hc _ := by rw [hc]
  told hc _ := by rw [hc]
  trace hc event := by rw [hc, trace_withSettings h]
  next hc := hc ▸ .refl (fun _ => ⟨rfl, rfl, rfl⟩) _
  stream hc := by rw [hc]
  of_stream hc hstream := by rw [hc, hstream]
  interchangeable := TokenStream.interchangeable_eq

theorem Configuration.Simulates.withSettings (h : c.Simulates p fuel c') (s : Settings) :
    c.Simulates (p.withSettings s) fuel c' := by
  cases h with
  | before => exact .before
  | reading hrewind hpasses => exact .reading hrewind hpasses

namespace Recovery

variable {strategy : Strategy} {state : StateId} {notice : Symbol V → Notice V}
  {ids : List SymbolId} {unwound : Nat} {token : Symbol V}

section

variable (h : s.trace = p.settings.trace)

include h

/-! ## Recovery -/

theorem traceSuccess_withSettings (strategy : Strategy) (state : StateId) (unwound : Nat)
    (sim : Simulation V) (c : Configuration σ V) :
    traceSuccess (p.withSettings s) strategy state unwound sim c =
      traceSuccess p strategy state unwound sim c :=
  trace_withSettings h _ _

theorem tryIds_withSettings (fuel : Nat) (strategy : Strategy) (state : StateId)
    (hnotice : ∀ x, (notice x).isTrace = false) (ids : List SymbolId) (c : Configuration σ V) :
    tryIds (p.withSettings s) fuel strategy state notice ids c =
      tryIds p fuel strategy state notice ids c :=
  (((recoveryLockstep_withSettings h).tryIds rfl fuel strategy state notice hnotice ids).mono
    fun _ _ => Attempt.Related.eq).eq

theorem insertMissing_withSettings (fuel : Nat) (state : StateId) (ids : List SymbolId)
    (c : Configuration σ V) :
    insertMissing (p.withSettings s) fuel state ids c = insertMissing p fuel state ids c :=
  (((recoveryLockstep_withSettings h).insertMissing rfl fuel state ids).mono
    fun _ _ => Attempt.Related.eq).eq

theorem replaceMisspelled_withSettings (fuel : Nat) (state : StateId) (ids : List SymbolId)
    (c : Configuration σ V) :
    replaceMisspelled (p.withSettings s) fuel state ids c = replaceMisspelled p fuel state ids c :=
  (((recoveryLockstep_withSettings h).replaceMisspelled rfl fuel state ids).mono
    fun _ _ => Attempt.Related.eq).eq

theorem deleteUnexpected_withSettings (fuel : Nat) (state : StateId) (c : Configuration σ V) :
    deleteUnexpected (p.withSettings s) fuel state c = deleteUnexpected p fuel state c :=
  (((recoveryLockstep_withSettings h).deleteUnexpected rfl fuel state).mono
    fun _ _ => Attempt.Related.eq).eq

theorem widenPhrase_withSettings (state : StateId) (unwound fuel : Nat) (c : Configuration σ V) :
    widenPhrase (p.withSettings s) state unwound fuel c = widenPhrase p state unwound fuel c :=
  (((recoveryLockstep_withSettings h).widenPhrase rfl state unwound fuel).mono
    fun _ _ => Repair.Related.eq).eq

theorem replacePhrase_withSettings (fuel : Nat) (state : StateId) (c : Configuration σ V) :
    replacePhrase (p.withSettings s) fuel state c = replacePhrase p fuel state c :=
  (((recoveryLockstep_withSettings h).replacePhrase rfl fuel state).mono
    fun _ _ => Repair.Related.eq).eq

theorem recover_withSettings (fuel : Nat) (token : Symbol V) (c : Configuration σ V) :
    recover (p.withSettings s) fuel token c = recover p fuel token c :=
  (((recoveryLockstep_withSettings h).recover rfl fuel token).mono
    fun _ _ => Repair.Related.eq).eq

/-! ## Its moments -/

theorem TryingIds.withSettings (hnotice : ∀ x, (notice x).isTrace = false)
    (htry : TryingIds p fuel strategy state notice ids c c') :
    TryingIds (p.withSettings s) fuel strategy state notice ids c c' := by
  induction htry with
  | simulating hsim => exact .simulating (hsim.withSettings s)
  | traced hsim hok =>
    rw [← traceSuccess_withSettings h]
    exact .traced hsim hok
  | next hsim hok _ ih => exact .next hsim hok ih
  | done hdone => exact .done ((tryIds_withSettings h _ _ _ hnotice _ _).trans hdone)

theorem Inserting.withSettings (hinsert : Inserting p fuel state ids c c') :
    Inserting (p.withSettings s) fuel state ids c c' := by
  cases hinsert with
  | trying hids htop hstream htry =>
    exact .trying hids htop hstream (htry.withSettings h fun _ => rfl)
  | removed hids htop hstream htry hremove =>
    exact .removed hids htop hstream
      ((tryIds_withSettings h _ _ _ (fun _ => rfl) _ _).trans htry) hremove
  | done hdone => exact .done ((insertMissing_withSettings h _ _ _ _).trans hdone)

theorem Replacing.withSettings (hreplace : Replacing p fuel state ids c c') :
    Replacing (p.withSettings s) fuel state ids c c' := by
  cases hreplace with
  | trying hids hpeek htry => exact .trying hids hpeek (htry.withSettings h fun _ => rfl)
  | restored hids hpeek htry =>
    exact .restored hids hpeek ((tryIds_withSettings h _ _ _ (fun _ => rfl) _ _).trans htry)
  | done hdone => exact .done ((replaceMisspelled_withSettings h _ _ _ _).trans hdone)

theorem Deleting.withSettings (hdelete : Deleting p fuel state c c') :
    Deleting (p.withSettings s) fuel state c c' := by
  cases hdelete with
  | rewound hrewind => exact .rewound hrewind
  | simulating hrewind hremove hsim => exact .simulating hrewind hremove (hsim.withSettings s)
  | traced hrewind hremove hsim hok =>
    rw [← traceSuccess_withSettings h]
    exact .traced hrewind hremove hsim hok
  | restored hrewind hremove hsim hok hinsert =>
    exact .restored hrewind hremove hsim hok hinsert
  | done hdone => exact .done ((deleteUnexpected_withSettings h _ _ _).trans hdone)

theorem Widening.withSettings (hwiden : Widening p state unwound fuel c c') :
    Widening (p.withSettings s) state unwound fuel c c' := by
  induction hwiden with
  | simulating hsim => exact .simulating (hsim.withSettings s)
  | traced hsim hok =>
    rw [← traceSuccess_withSettings h]
    exact .traced hsim hok
  | discarded hsim hok hremove => exact .discarded hsim hok hremove
  | next hsim hok hremove heof hstack _ ih => exact .next hsim hok hremove heof hstack ih
  | done hdone => exact .done ((widenPhrase_withSettings h _ _ _ _).trans hdone)

theorem ReplacingPhrase.withSettings (hphrase : ReplacingPhrase p fuel state c c') :
    ReplacingPhrase (p.withSettings s) fuel state c c' := by
  cases hphrase with
  | unwinding herror hshift hdepth => exact .unwinding herror hshift hdepth
  | widening htop herror hshift hwiden =>
    exact .widening htop herror hshift (hwiden.withSettings h)
  | done hdone => exact .done ((replacePhrase_withSettings h _ _ _).trans hdone)

theorem Recovering.withSettings (hrecover : Recovering p fuel token c c') :
    Recovering (p.withSettings s) fuel token c c' := by
  have hopens : ∀ {state ids c₀}, Opens p token c state ids c₀ →
      Opens (p.withSettings s) token c state ids c₀ := fun hopen =>
    ⟨hopen.not_eof, hopen.topState_eq, hopen.candidates_eq, hopen.opened_eq⟩
  cases hrecover with
  | buffering heof => exact .buffering heof
  | inserting hopen hinsert => exact .inserting (hopens hopen) (hinsert.withSettings h)
  | replacing hopen hinserted hreplace =>
    rw [← insertMissing_withSettings h] at hinserted
    exact .replacing (hopens hopen) hinserted (hreplace.withSettings h)
  | deleting hopen hinserted hreplaced hdelete =>
    rw [← insertMissing_withSettings h] at hinserted
    rw [← replaceMisspelled_withSettings h] at hreplaced
    exact .deleting (hopens hopen) hinserted hreplaced (hdelete.withSettings h)
  | replacingPhrase hopen hinserted hreplaced hdeleted hphrase =>
    rw [← insertMissing_withSettings h] at hinserted
    rw [← replaceMisspelled_withSettings h] at hreplaced
    rw [← deleteUnexpected_withSettings h] at hdeleted
    exact .replacingPhrase (hopens hopen) hinserted hreplaced hdeleted (hphrase.withSettings h)
  | done hdone => exact .done ((recover_withSettings h _ _ _).trans hdone)

end

end Recovery

end ShiftReduce
