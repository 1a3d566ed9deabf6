import ShiftReduce.Proofs.Parser.Fields
import ShiftReduce.Proofs.Recovery.Moments

/-!
# Invariants of recovery

Recovery has many ways through it, and all of them consist of the same few acts: the stream is
edited, a simulation is made, something is told, and for an error phrase the stack is changed.
A property that each of these acts keeps is an invariant of recovery, and it holds at each of
its moments. Only a fault of the scanner may put another property in its place, and then
recovery ends.

* `EditStable`, `WidenStable` and `Stable`: what the acts have to keep, for the strategies that
  edit the offending token, for the widening of a phrase and for all of them.
* `recover_ends`: how recovery ends.
* `Recovering.held`: what holds while it lasts.
-/

namespace ShiftReduce

open ShiftReduce.Configuration

variable {σ V : Type} {p : Parser σ V} {fuel unwound depth : Nat} {c c' : Configuration σ V}
  {a a' : Attempt σ V} {r : Repair σ V} {strategy : Strategy} {state target : StateId}
  {notice : Symbol V → Notice V} {ids : List SymbolId} {token : Symbol V} {t : PackedTables}
  {error : SymbolId} {s : ParseStack V} {P : Configuration σ V → Prop}
  {F : ScanError → Configuration σ V → Prop}

/-- A property, or the one that a fault of the scanner puts in its place. -/
def Held (P : Configuration σ V → Prop) (F : ScanError → Configuration σ V → Prop)
    (c : Configuration σ V) : Prop :=
  P c ∨ ∃ fault, F fault c

/-- How a repair ends, if nothing but a fault of the scanner can hurt a property. -/
inductive Repair.Ends (P : Configuration σ V → Prop)
    (F : ScanError → Configuration σ V → Prop) : Repair σ V → Prop
  | repaired {c : Configuration σ V} : P c → Ends P F (.repaired c)
  | givenUp {reason : Unrecoverable} {position : Position} {c : Configuration σ V} : P c →
      Ends P F (.aborted (.unrecoverable reason position) c)
  | fault {fault : ScanError} {c : Configuration σ V} : F fault c →
      Ends P F (.aborted (.scanner fault) c)

/-- How an attempt ends, if nothing but a fault of the scanner can hurt a property. -/
inductive Attempt.Ends (P : Configuration σ V → Prop)
    (F : ScanError → Configuration σ V → Prop) : Attempt σ V → Prop
  | settled {r : Repair σ V} : r.Ends P F → Ends P F (.settled r)
  | failed {c : Configuration σ V} : P c → Ends P F (.failed c)

theorem Repair.Ends.held (h : r.Ends P F) : Held P F r.configuration := by
  cases h with
  | repaired hP => exact .inl hP
  | givenUp hP => exact .inl hP
  | fault hF => exact .inr ⟨_, hF⟩

theorem Attempt.Ends.held (h : a.Ends P F) : Held P F a.configuration := by
  cases h with
  | settled hr => exact hr.held
  | failed hP => exact .inl hP

/-- A property that not even a fault hurts. -/
theorem Held.of_unhurt (h : Held P (fun _ => P) c) : P c := by
  rcases h with hP | ⟨_, hP⟩
  · exact hP
  · exact hP

theorem Attempt.Ends.of_failed (h : (Attempt.failed c : Attempt σ V).Ends P F) : P c := by
  cases h with
  | failed hP => exact hP

/-- An attempt after another one goes on from what that one has left. -/
theorem Attempt.Ends.orElse {second : Configuration σ V → Fueled (Attempt σ V)}
    (ha : a.Ends P F) (h : a.orElse second = .ok a')
    (hsecond : ∀ c, P c → second c = .ok a' → a'.Ends P F) : a'.Ends P F := by
  cases ha with
  | settled hr =>
    cases h
    exact .settled hr
  | failed hP => exact hsecond _ hP h

/-- If a second attempt has failed, then so has the first. -/
theorem Attempt.orElse_eq_failed {second : Configuration σ V → Fueled (Attempt σ V)}
    (h : a.orElse second = .ok (.failed c')) :
    ∃ c, a = .failed c ∧ second c = .ok (.failed c') := by
  cases a with
  | settled r => cases h
  | failed c => exact ⟨c, rfl, h⟩

namespace Recovery

/-- A property that is kept by whatever is done to edit the offending token. -/
structure EditStable (p : Parser σ V) (P : Configuration σ V → Prop)
    (F : ScanError → Configuration σ V → Prop) : Prop where
  stream : ∀ {c stream}, P c → stream.scanner = c.stream.scanner → P { c with stream }
  traced : ∀ {c strategy state ok unwound reduced}, P c →
    P (c.trace p (.recovery strategy state ok unwound reduced))
  told : ∀ {c n}, P c → n.isRepair = true → P (c.notify n)
  simulated : ∀ {c c' fuel sim ok}, P c → c.simulate p fuel = .ok (sim, c') →
    sim.succeeded = .ok ok → P c'
  faulted : ∀ {c c' fuel sim fault}, P c → c.simulate p fuel = .ok (sim, c') →
    sim.succeeded = .error fault → F fault c'
  simulating : ∀ {c c' fuel}, P c → c.Simulates p fuel c' → Held P F c'

/-- A property that is kept by whatever is done to widen a phrase. -/
structure WidenStable (p : Parser σ V) (P : Configuration σ V → Prop)
    (F : ScanError → Configuration σ V → Prop) : Prop extends EditStable p P F where
  widened : ∀ {c stop stack}, P c → 2 ≤ c.stack.depth →
    c.stack.modifyTopSymbol ({ · with stop }) = .ok stack → P { c with stack }

/-- A property that is kept by whatever recovery does. -/
structure Stable (p : Parser σ V) (P : Configuration σ V → Prop)
    (F : ScanError → Configuration σ V → Prop) : Prop extends EditStable p P F where
  unwound : ∀ {c depth}, P c → 1 ≤ depth → P { c with stack := c.stack.truncate depth }
  entered : ∀ {c error depth target x}, P c → p.tables.errorSymbol = some error →
    errorShift? p.tables error c.stack c.stack.depth = .ok (some (depth, target)) →
    x.id = error →
    P (({ c with stack := c.stack.truncate depth } : Configuration σ V).push target x)
  widened : ∀ {c stop stack}, P c → 2 ≤ c.stack.depth →
    c.stack.modifyTopSymbol ({ · with stop }) = .ok stack → P { c with stack }

namespace EditStable

variable (hs : EditStable p P F)

include hs

theorem modifyHead (hP : P c) (f : Symbol V → Symbol V) : P (modifyHead f c) :=
  hs.stream hP (TokenStream.scanner_modify c.stream 0 f)

theorem notifyHead (hP : P c) (hnotice : ∀ x, (notice x).isRepair = true) :
    P (notifyHead notice c) := by
  unfold Recovery.notifyHead
  split
  · exact hs.told hP (hnotice _)
  · exact hP

theorem opened {stream : TokenStream V} (hP : P c)
    (h : (c.stream.setBuffering true).insert 0 token = .ok stream) : P { c with stream } := by
  have hscanner : stream.scanner = (c.stream.setBuffering true).scanner :=
    TokenStream.scanner_insert h
  exact hs.stream hP hscanner

theorem opens {start : Configuration σ V} (hP : P c) (h : Opens p token c state ids start) :
    P start := by
  obtain ⟨stream, hinsert, rfl⟩ := h.opened_eq
  exact hs.opened hP hinsert

/-! ## Edits of the offending token -/

theorem tryIds (hP : P c) (hnotice : ∀ x, (notice x).isRepair = true)
    (h : tryIds p fuel strategy state notice ids c = .ok a) : a.Ends P F := by
  induction ids generalizing c with
  | nil =>
    cases h
    exact .failed hP
  | cons id ids ih =>
    obtain ⟨⟨sim, c₁⟩, hsim, h⟩ := bind_eq_ok.mp h
    have hmodified := hs.modifyHead hP ({ · with id })
    dsimp only at h
    split at h
    · rename_i hok
      cases h
      exact .settled (.repaired
        (hs.notifyHead (hs.traced (hs.simulated hmodified hsim hok)) hnotice))
    · rename_i hok
      exact ih (hs.simulated hmodified hsim hok) h
    · rename_i hfault
      cases h
      exact .settled (.fault (hs.faulted hmodified hsim hfault))

theorem tryingIds (hP : P c) (hnotice : ∀ x, (notice x).isRepair = true)
    (h : TryingIds p fuel strategy state notice ids c c') : Held P F c' := by
  induction h with
  | simulating hsim => exact hs.simulating (hs.modifyHead hP _) hsim
  | traced hsim hok => exact .inl (hs.traced (hs.simulated (hs.modifyHead hP _) hsim hok))
  | next hsim hok _ ih => exact ih (hs.simulated (hs.modifyHead hP _) hsim hok)
  | done hdone => exact (hs.tryIds hP hnotice hdone).held

theorem insertMissing (hP : P c) (h : insertMissing p fuel state ids c = .ok a) :
    a.Ends P F := by
  cases ids with
  | nil =>
    cases h
    exact .failed hP
  | cons first rest =>
    obtain ⟨below, -, h⟩ := bind_eq_ok.mp h
    obtain ⟨stream, hinsert, h⟩ := bind_eq_ok.mp h
    obtain ⟨tried, htried, h⟩ := bind_eq_ok.mp h
    have hinserted := hs.stream hP (TokenStream.scanner_insert (liftM_eq_ok.mp hinsert))
    refine (hs.tryIds hinserted (fun _ => rfl) htried).orElse h ?_
    intro c₁ hP h
    obtain ⟨⟨removed, stream'⟩, hremove, h⟩ := bind_eq_ok.mp h
    cases h
    exact .failed (hs.traced (hs.stream hP (TokenStream.scanner_remove (liftM_eq_ok.mp hremove))))

theorem inserting (hP : P c) (h : Inserting p fuel state ids c c') : Held P F c' := by
  cases h with
  | trying _ _ hinsert htrying =>
    exact hs.tryingIds (hs.stream hP (TokenStream.scanner_insert hinsert)) (fun _ => rfl) htrying
  | removed _ _ hinsert htry hremove =>
    have htried := hs.tryIds (hs.stream hP (TokenStream.scanner_insert hinsert)) (fun _ => rfl) htry
    exact .inl (hs.stream htried.of_failed (TokenStream.scanner_remove hremove))
  | done hdone => exact (hs.insertMissing hP hdone).held

theorem replaceMisspelled (hP : P c) (h : replaceMisspelled p fuel state ids c = .ok a) :
    a.Ends P F := by
  unfold Recovery.replaceMisspelled at h
  split at h
  · cases h
    exact .failed hP
  · cases h
    exact .failed hP
  · obtain ⟨tried, htried, h⟩ := bind_eq_ok.mp h
    refine (hs.tryIds hP (fun _ => rfl) htried).orElse h ?_
    intro c₁ hP h
    cases h
    exact .failed (hs.traced (hs.modifyHead hP _))

theorem replacing (hP : P c) (h : Replacing p fuel state ids c c') : Held P F c' := by
  cases h with
  | trying _ _ htrying => exact hs.tryingIds hP (fun _ => rfl) htrying
  | restored _ _ htry =>
    exact .inl (hs.modifyHead (hs.tryIds hP (fun _ => rfl) htry).of_failed _)
  | done hdone => exact (hs.replaceMisspelled hP hdone).held

theorem deleted {stream stream' : TokenStream V} (hP : P c) (hrewind : c.stream.rewind = .ok stream)
    (hremove : stream.remove 0 = .ok (token, stream')) : P { c with stream := stream' } :=
  hs.stream hP ((TokenStream.scanner_remove hremove).trans (TokenStream.scanner_rewind hrewind))

theorem deleteUnexpected (hP : P c) (h : deleteUnexpected p fuel state c = .ok a) :
    a.Ends P F := by
  obtain ⟨stream, hrewind, h⟩ := bind_eq_ok.mp h
  obtain ⟨⟨token, stream'⟩, hremove, h⟩ := bind_eq_ok.mp h
  obtain ⟨⟨sim, c₁⟩, hsim, h⟩ := bind_eq_ok.mp h
  have hdeleted := hs.deleted hP (liftM_eq_ok.mp hrewind) (liftM_eq_ok.mp hremove)
  dsimp only at h
  split at h
  · rename_i hok
    cases h
    exact .settled (.repaired (hs.told (hs.traced (hs.simulated hdeleted hsim hok)) rfl))
  · rename_i hok
    obtain ⟨stream'', hinsert, h⟩ := bind_eq_ok.mp h
    cases h
    have hrestored := hs.stream (hs.simulated hdeleted hsim hok)
      (TokenStream.scanner_insert (liftM_eq_ok.mp hinsert))
    exact .failed (hs.traced hrestored)
  · rename_i hfault
    cases h
    exact .settled (.fault (hs.faulted hdeleted hsim hfault))

theorem deleting (hP : P c) (h : Deleting p fuel state c c') : Held P F c' := by
  cases h with
  | rewound hrewind => exact .inl (hs.stream hP (TokenStream.scanner_rewind hrewind))
  | simulating hrewind hremove hsim =>
    exact hs.simulating (hs.deleted hP hrewind hremove) hsim
  | traced hrewind hremove hsim hok =>
    exact .inl (hs.traced (hs.simulated (hs.deleted hP hrewind hremove) hsim hok))
  | restored hrewind hremove hsim hok hinsert =>
    exact .inl (hs.stream (hs.simulated (hs.deleted hP hrewind hremove) hsim hok)
      (TokenStream.scanner_insert hinsert))
  | done hdone => exact (hs.deleteUnexpected hP hdone).held

/-- All edits, each after those before it have failed. -/
theorem edits {a'' : Attempt σ V} (hP : P c)
    (hinsert : Recovery.insertMissing p fuel state ids c = .ok a)
    (hreplace : a.orElse (Recovery.replaceMisspelled p fuel state ids) = .ok a')
    (hdelete : a'.orElse (Recovery.deleteUnexpected p fuel state) = .ok a'') : a''.Ends P F :=
  ((hs.insertMissing hP hinsert).orElse hreplace fun _ hP => hs.replaceMisspelled hP).orElse
    hdelete fun _ hP => hs.deleteUnexpected hP

end EditStable

/-! ## Error phrases -/

/-- The entry that shifts the error symbol is on the stack, and it is kept. -/
theorem errorShift?_bounds {found : Nat × StateId}
    (h : errorShift? t error s depth = .ok (some found)) : 1 ≤ found.1 ∧ found.1 ≤ s.depth := by
  induction depth with
  | zero => cases h
  | succ depth ih =>
    unfold errorShift? at h
    split at h
    · cases h
    · rename_i entry hentry
      obtain ⟨action, -, h⟩ := bind_eq_ok.mp h
      split at h
      · cases h
        exact ⟨Nat.le_add_left 1 depth, (Array.getElem?_eq_some_iff.mp hentry).1⟩
      · exact ih h

/-- The phrase stands on the entry that shifts the error symbol. -/
theorem depth_phrase {kept : Nat} {x : Symbol V}
    (h : errorShift? t error c.stack depth = .ok (some (kept, target))) :
    2 ≤ (({ c with stack := c.stack.truncate kept } : Configuration σ V).push target
      x).stack.depth := by
  obtain ⟨hpos, hle⟩ := errorShift?_bounds h
  have htruncated : (c.stack.truncate kept).depth = min kept c.stack.depth :=
    Stack.size_truncate _ _
  rw [push_stack, ParseStack.depth_push, htruncated]
  exact Nat.succ_le_succ (Nat.le_min.mpr ⟨hpos, Nat.le_trans hpos hle⟩)

theorem depth_modifyTopSymbol {s' : ParseStack V} {f : Symbol V → Symbol V}
    (h : s.modifyTopSymbol f = .ok s') : s'.depth = s.depth := by
  obtain ⟨entry, -, h⟩ := bind_eq_ok.mp h
  cases h
  exact Array.size_setIfInBounds

theorem simulate_stack {sim : Simulation V} (h : c.simulate p fuel = .ok (sim, c')) :
    c'.stack = c.stack := by
  obtain ⟨stream, -, h⟩ := bind_eq_ok.mp h
  obtain ⟨run, -, h⟩ := bind_eq_ok.mp h
  cases h
  rfl

namespace WidenStable

variable (hs : WidenStable p P F)

include hs

/-- A phrase is widened while it is on top of another entry. -/
theorem widenPhrase (hP : P c) (hdepth : 2 ≤ c.stack.depth)
    (h : widenPhrase p state unwound fuel c = .ok r) : r.Ends P F := by
  -- By induction on the fuel. In all rounds the phrase stands on another entry.
  induction fuel generalizing c with
  | zero => cases h
  | succ fuel ih =>
    obtain ⟨⟨sim, c₁⟩, hsim, h⟩ := bind_eq_ok.mp h
    dsimp only at h
    split at h
    · rename_i hfault
      cases h
      exact .fault (hs.faulted hP hsim hfault)
    · rename_i hok
      obtain ⟨top, -, h⟩ := bind_eq_ok.mp h
      cases h
      exact .repaired (hs.told (hs.traced (hs.simulated hP hsim hok)) rfl)
    · rename_i hok
      obtain ⟨⟨discarded, stream⟩, hremove, h⟩ := bind_eq_ok.mp h
      have hrest := hs.stream (hs.simulated hP hsim hok)
        (TokenStream.scanner_remove (liftM_eq_ok.mp hremove))
      have hdepth' : 2 ≤ c₁.stack.depth := simulate_stack hsim ▸ hdepth
      dsimp only at h
      split at h
      · cases h
        exact .givenUp (hs.traced hrest)
      · obtain ⟨stack, hmodify, h⟩ := bind_eq_ok.mp h
        have hwidened := hs.widened hrest hdepth' (liftM_eq_ok.mp hmodify)
        exact ih hwidened (depth_modifyTopSymbol (liftM_eq_ok.mp hmodify) ▸ hdepth') h

theorem widening (hP : P c) (hdepth : 2 ≤ c.stack.depth)
    (h : Widening p state unwound fuel c c') : Held P F c' := by
  induction h with
  | simulating hsim => exact hs.simulating hP hsim
  | traced hsim hok => exact .inl (hs.traced (hs.simulated hP hsim hok))
  | discarded hsim hok hremove =>
    exact .inl (hs.stream (hs.simulated hP hsim hok) (TokenStream.scanner_remove hremove))
  | next hsim hok hremove _ hmodify _ ih =>
    have hrest := hs.stream (hs.simulated hP hsim hok) (TokenStream.scanner_remove hremove)
    have hdepth' := simulate_stack hsim ▸ hdepth
    exact ih (hs.widened hrest hdepth' hmodify) (depth_modifyTopSymbol hmodify ▸ hdepth')
  | done hdone => exact (hs.widenPhrase hP hdepth hdone).held

end WidenStable

namespace Stable

variable (hs : Stable p P F)

include hs

theorem widenStable : WidenStable p P F := { hs with }

theorem replacePhrase (hP : P c) (h : replacePhrase p fuel state c = .ok r) : r.Ends P F := by
  obtain ⟨below, -, h⟩ := bind_eq_ok.mp h
  dsimp only at h
  split at h
  · cases h
    exact .givenUp (hs.traced hP)
  · rename_i error herror
    obtain ⟨found, hfound, h⟩ := bind_eq_ok.mp h
    cases found with
    | none =>
      cases h
      exact .givenUp (hs.traced hP)
    | some found =>
      obtain ⟨kept, target⟩ := found
      have hfound := liftM_eq_ok.mp hfound
      exact hs.widenStable.widenPhrase (hs.entered hP herror hfound rfl) (depth_phrase hfound) h

theorem replacingPhrase (hP : P c) (h : ReplacingPhrase p fuel state c c') : Held P F c' := by
  cases h with
  | @unwinding error found depth _ hfound hdepth =>
    refine .inl (hs.unwound hP ?_)
    cases found with
    | none => exact hdepth
    | some found => exact Nat.le_trans (errorShift?_bounds hfound).1 hdepth
  | widening _ herror hfound hwidening =>
    exact hs.widenStable.widening (hs.entered hP herror hfound rfl) (depth_phrase hfound) hwidening
  | done hdone => exact (hs.replacePhrase hP hdone).held

/-! ## All strategies -/

theorem recover_ends (hP : P c) (h : recover p fuel token c = .ok r) : r.Ends P F := by
  unfold recover at h
  split at h
  · cases h
    exact .givenUp hP
  · obtain ⟨state, -, h⟩ := bind_eq_ok.mp h
    obtain ⟨stream, hinsert, h⟩ := bind_eq_ok.mp h
    obtain ⟨ids, -, h⟩ := bind_eq_ok.mp h
    obtain ⟨inserted, hinserted, h⟩ := bind_eq_ok.mp h
    obtain ⟨replaced, hreplaced, h⟩ := bind_eq_ok.mp h
    obtain ⟨deleted, hdeleted, h⟩ := bind_eq_ok.mp h
    obtain ⟨done, hdone, h⟩ := bind_eq_ok.mp h
    have hopened := hs.opened hP (liftM_eq_ok.mp hinsert)
    -- The phrase is replaced only if the edits before it have failed.
    have hdone' : done.Ends P F := by
      cases hs.edits hopened hinserted hreplaced hdeleted with
      | settled hr =>
        cases hdone
        exact hr
      | failed hP => exact hs.replacePhrase hP hdone
    cases hdone' with
    | repaired hP =>
      cases h
      exact .repaired (hs.stream hP rfl)
    | givenUp hP =>
      cases h
      exact .givenUp hP
    | fault hF =>
      cases h
      exact .fault hF

/-- An invariant holds at every moment of recovery. -/
theorem recovering (hP : P c) (h : Recovering p fuel token c c') : Held P F c' := by
  cases h with
  | buffering _ => exact .inl (hs.stream hP rfl)
  | inserting hopen hinserting => exact hs.inserting (hs.opens hP hopen) hinserting
  | replacing hopen hinsert hreplacing =>
    exact hs.replacing (hs.insertMissing (hs.opens hP hopen) hinsert).of_failed hreplacing
  | deleting hopen hinsert hreplace hdeleting =>
    have hinserted := (hs.insertMissing (hs.opens hP hopen) hinsert).of_failed
    exact hs.deleting (hs.replaceMisspelled hinserted hreplace).of_failed hdeleting
  | replacingPhrase hopen hinsert hreplace hdelete hphrase =>
    have hinserted := (hs.insertMissing (hs.opens hP hopen) hinsert).of_failed
    have hreplaced := (hs.replaceMisspelled hinserted hreplace).of_failed
    exact hs.replacingPhrase (hs.deleteUnexpected hreplaced hdelete).of_failed hphrase
  | done hdone => exact (hs.recover_ends hP hdone).held

end Stable

end Recovery

end ShiftReduce
