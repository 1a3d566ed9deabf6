import ShiftReduce.Proofs.Parser.Fields
import ShiftReduce.Proofs.Recovery.Moments
import ShiftReduce.Proofs.Simulation
import ShiftReduce.Proofs.Stream.Room
import ShiftReduce.Proofs.Tables.Closure

/-!
# Recovery keeps within its means

Recovery edits a stream in place and works on stacks of states that it has not looked at.
It stays within the contracts all the same: whatever the tables can fail in, nothing else
fails. What carries this is a pair of bounds on the number of tokens held back, which each
strategy hands on to the next:

* recovery begins with the offending token alone;
* an inserted token makes the buffer one longer than the window, and a simulation does not
  read behind the window;
* a strategy that fails leaves a token to go on with.

`Kept` is what all configurations of recovery have in common. Each function has one lemma on
what it returns and one on its moments.
-/

namespace ShiftReduce

open ShiftReduce.Configuration

variable {σ V : Type} {t : PackedTables} {A : SymbolId → Prop} {D : StateId → Prop}
  {fails : Breach → Prop}
  {p : Parser σ V} {fuel w l n : Nat} {m : σ} {c c' : Configuration σ V}

/-! ## Simulations -/

/-- A simulator in given states. -/
def Simulator.Within (D : StateId → Prop) (sim : Simulator) : Prop :=
  (∀ s ∈ sim.column, D s) ∧ sim.column ≠ []

namespace Simulator

variable {sim : Simulator} {rule : RuleId} {x : SymbolId}

theorem Within.enter (h : sim.Within D) {s : StateId} (hs : D s) : (sim.enter s).Within D := by
  constructor
  · intro s' hs'
    rw [column_enter] at hs'
    rcases List.mem_cons.mp hs' with rfl | hs'
    · exact hs
    · exact h.1 s' hs'
  · rw [column_enter]
    exact List.cons_ne_nil _ _

/-- A reduction leads to a goto from one of the states, or it is refused. -/
theorem reduce_returns (hl : t.Leads A D fails) (h : sim.Within D)
    (hrule : Returns fails (fun info => A info.lhs) (t.rule rule)) :
    Returns fails (fun r => (∀ target, r.1 = .shift target → D target) ∧ r.2.Within D)
      (Simulator.reduce t rule sim) := by
  apply hrule.bind
  intro info _ hlhs
  split
  · exact ⟨fun target htarget => (by cases htarget), h⟩
  · rename_i hshort
    have hcolumn := sim.column_dropTo (show info.length ≤ sim.states.size by omega)
    rw [size_states] at hshort
    obtain ⟨base, rest, hdrop⟩ : ∃ base rest, sim.column.drop info.length = base :: rest :=
      List.exists_cons_of_ne_nil (by simp; omega)
    rw [hdrop] at hcolumn
    have hbase : D base := by
      apply h.1
      exact List.mem_of_mem_drop (hdrop ▸ List.mem_cons_self)
    simp only [top?_states, hcolumn, List.head?_cons]
    apply (hl.goto base info.lhs hbase hlhs).bind
    intro found _ hfound
    refine ⟨hfound, ?_, ?_⟩
    · intro s hs
      simp only [hcolumn, ← hdrop] at hs
      exact h.1 s (List.mem_of_mem_drop hs)
    · simp [hcolumn]

theorem advance_returns (hl : t.Leads A D fails) (h : sim.Within D) (hx : A x) :
    Returns (Interrupt.Expected fails) (fun r => r.2.Within D) (advance t x fuel sim) := by
  induction fuel generalizing sim with
  | zero => exact returns_error trivial
  | succ fuel ih =>
    obtain ⟨s, below, hcolumn⟩ := List.exists_cons_of_ne_nil h.2
    have hs : D s := h.1 s (hcolumn ▸ List.mem_cons_self)
    rw [advance, top?_states, hcolumn, List.head?_cons]
    apply (hl.action s x hs hx).lift.bind
    intro action _ haction
    cases action with
    | shift target => exact h.enter (haction.1 target rfl)
    | accept => exact h
    | error => exact h
    | reduce rule =>
      apply (reduce_returns hl h (haction.2 rule rfl)).lift.bind
      rintro ⟨found, reduced⟩ _ ⟨hfound, hreduced⟩
      cases found with
      | shift target => exact ih (hreduced.enter (hfound target rfl))
      | accept => exact hreduced
      | reduce other => exact hreduced
      | error => exact hreduced

end Simulator

namespace Simulation

variable {sim : Simulator} {stream stream' : TokenStream V} {lexical lexical' : List LexicalError}
  {more : Nat}

/-- A simulation that is to read up to a bound of the tokens held back does not exceed it. If
it decides, it has read a token. -/
theorem runTokens_returns (hl : t.Leads A D fails) (hsim : sim.Within D)
    (hmode : stream.buffering = true) (hfits : stream.Fits w l n) (hcarries : stream.Carries A)
    (hread : stream.read ≤ stream.buffered.length) (hmore : stream.read + more < n)
    (hn : n ≤ w + 2) :
    Returns (Interrupt.Expected fails)
      (fun run => run.stream.Fits w l n ∧ run.stream.Carries A ∧ run.stream.buffering = true ∧
        ∀ ok, run.succeeded = .ok ok → 1 ≤ run.stream.buffered.length)
      (runTokens t fuel more sim stream lexical) := by
  -- By induction on what is left to read: each token moves the cursor on.
  induction more generalizing sim stream lexical with
  | zero =>
    obtain ⟨d, hnext, hd⟩ := hfits.nextBuffered hmode hread (by omega) hn
    obtain ⟨hmode', -, hpending, -, hresult⟩ := TokenStream.nextBuffered_spec hnext hread
    have hcarries' := hcarries.of_pending_eq hpending
    rw [runTokens, hnext]
    simp only [liftM_ok, ok_bind]
    split
    · exact ⟨hd, hcarries', hmode', fun ok hok => (by cases hok)⟩
    · rename_i token htoken
      obtain ⟨rfl, -, hlong⟩ := hresult token htoken
      have hsome : 1 ≤ d.stream.buffered.length := by omega
      apply (Simulator.advance_returns hl hsim (hcarries _)).bind
      rintro ⟨v, sim'⟩ _ _
      cases v <;> exact ⟨hd, hcarries', hmode', fun _ _ => hsome⟩
  | succ more ih =>
    obtain ⟨d, hnext, hd⟩ := hfits.nextBuffered hmode hread (by omega) hn
    obtain ⟨hmode', -, hpending, -, hresult⟩ := TokenStream.nextBuffered_spec hnext hread
    have hcarries' := hcarries.of_pending_eq hpending
    rw [runTokens, hnext]
    simp only [liftM_ok, ok_bind]
    split
    · exact ⟨hd, hcarries', hmode', fun ok hok => (by cases hok)⟩
    · rename_i token htoken
      obtain ⟨rfl, hcursor, hlong⟩ := hresult token htoken
      have hsome : 1 ≤ d.stream.buffered.length := by omega
      apply (Simulator.advance_returns hl hsim (hcarries _)).bind
      rintro ⟨v, sim'⟩ _ hsim'
      cases v with
      | shifted => exact ih hsim' hmode' hd hcarries' (by omega) (by omega)
      | accepted => exact ⟨hd, hcarries', hmode', fun _ _ => hsome⟩
      | refused => exact ⟨hd, hcarries', hmode', fun _ _ => hsome⟩

/-- What a simulation passes is within the same bounds. -/
theorem Passes.fits (h : Passes t fuel more sim stream lexical stream' lexical')
    (hmode : stream.buffering = true) (hfits : stream.Fits w l n)
    (hread : stream.read ≤ stream.buffered.length) (hmore : stream.read + more < n)
    (hn : n ≤ w + 2) : stream'.Fits w l n := by
  induction h with
  | start => exact hfits
  | read hnext =>
    have hd := holds_of_exists (hfits.nextBuffered hmode hread (by omega) hn) hnext
    exact hd
  | next hnext htoken _ _ ih =>
    have hd := holds_of_exists (hfits.nextBuffered hmode hread (by omega) hn) hnext
    obtain ⟨hmode', -, -, -, hresult⟩ := TokenStream.nextBuffered_spec hnext hread
    obtain ⟨-, hcursor, hlong⟩ := hresult _ htoken
    exact ih hmode' hd (by omega) (by omega)

end Simulation

/-! ## Configurations in recovery -/

/-- What the configurations of recovery have in common: they are in given states, they hold
back between `l` and `n` tokens, only given symbols are to come, and the memory of the actions is
as it was. -/
structure Kept (A : SymbolId → Prop) (D : StateId → Prop) (m : σ) (w l n : Nat)
    (c : Configuration σ V) : Prop where
  states : ∀ s ∈ c.stack.column, D s
  column_ne : c.stack.column ≠ []
  fits : c.stream.Fits w l n
  carries : c.stream.Carries A
  memory_eq : c.memory = m

/-- A configuration of recovery that reads ahead. -/
structure Contained (A : SymbolId → Prop) (D : StateId → Prop) (m : σ) (w l n : Nat)
    (c : Configuration σ V) : Prop extends Kept A D m w l n c where
  buffering : c.stream.buffering = true

namespace Contained

variable {l' n' : Nat}

theorem mono (h : Contained A D m w l n c) (hl : l' ≤ l) (hn : n ≤ n') :
    Contained A D m w l' n' c :=
  ⟨⟨h.states, h.column_ne, h.fits.mono hl hn, h.carries, h.memory_eq⟩, h.buffering⟩

/-- Another stream, with its own bounds. -/
theorem of_stream (h : Contained A D m w l n c) {stream : TokenStream V}
    (hfits : stream.Fits w l' n') (hcarries : stream.Carries A) (hmode : stream.buffering = true) :
    Contained A D m w l' n' { c with stream } :=
  ⟨⟨h.states, h.column_ne, hfits, hcarries, h.memory_eq⟩, hmode⟩

/-- Only the stack, the stream and the memory matter. -/
theorem congr (h : Contained A D m w l n c) (hstack : c'.stack = c.stack)
    (hstream : c'.stream = c.stream) (hmemory : c'.memory = c.memory) : Contained A D m w l n c' :=
  ⟨⟨hstack ▸ h.states, hstack ▸ h.column_ne, hstream ▸ h.fits, hstream ▸ h.carries,
    hmemory.trans h.memory_eq⟩, hstream ▸ h.buffering⟩

theorem traced (h : Contained A D m w l n c) (p : Parser σ V) (event : TraceEvent) :
    Contained A D m w l n (c.trace p event) := by
  unfold trace
  split
  · exact h.congr rfl rfl rfl
  · exact h

theorem modified (h : Contained A D m w l n c) {id : SymbolId} (hid : A id) :
    Contained A D m w l n (Recovery.modifyHead ({ · with id }) c) := by
  refine h.of_stream (h.fits.modify _) (h.carries.modify fun _ _ => hid) ?_
  show (c.stream.modify 0 _).buffering = true
  unfold TokenStream.modify
  split
  · exact h.buffering
  · exact h.buffering

theorem notifyHead (h : Contained A D m w l n c) (notice : Symbol V → Notice V) :
    Contained A D m w l n (Recovery.notifyHead notice c) := by
  unfold Recovery.notifyHead
  split
  · exact h.congr rfl rfl rfl
  · exact h

theorem topSymbol (h : Contained A D m w l n c) : ∃ x, c.stack.topSymbol = .ok x := by
  have hne : c.stack.topDown ≠ [] := by simpa [ParseStack.column] using h.column_ne
  obtain ⟨entry, rest, htop⟩ := List.exists_cons_of_ne_nil hne
  exact ⟨entry.symbol, ParseStack.topSymbol_eq_ok.mpr ⟨entry, by rw [htop]; rfl, rfl⟩⟩

theorem insert (h : Contained A D m w l n c) (hn : n ≤ w + 2) {x : Symbol V} (hx : A x.id) :
    ∃ stream, c.stream.insert 0 x = .ok stream ∧
      Contained A D m w (l + 1) (n + 1) { c with stream } := by
  obtain ⟨stream, hinsert, hfits, hmode⟩ := h.fits.insert hn x
  exact ⟨stream, hinsert,
    h.of_stream hfits (h.carries.insert hx hinsert) (hmode.trans h.buffering)⟩

theorem remove (h : Contained A D m w (l + 1) n c) :
    ∃ removed, c.stream.remove 0 = .ok removed ∧ A removed.1.id ∧
      Contained A D m w l (n - 1) { c with stream := removed.2 } := by
  obtain ⟨x, stream, hremove, hfits, hmode⟩ := h.fits.remove
  obtain ⟨hx, hcarries⟩ := h.carries.remove hremove
  exact ⟨(x, stream), hremove, hx, h.of_stream hfits hcarries (hmode.trans h.buffering)⟩

theorem rewind (h : Contained A D m w l n c) :
    ∃ stream, c.stream.rewind = .ok stream ∧ Contained A D m w l n { c with stream } := by
  obtain ⟨hrewind, hfits⟩ := h.fits.rewind h.buffering
  exact ⟨_, hrewind, h.of_stream hfits h.carries h.buffering⟩

/-- The top symbol may be changed. -/
theorem exists_modified (h : Contained A D m w l n c) (f : Symbol V → Symbol V) :
    ∃ stack, c.stack.modifyTopSymbol f = .ok stack ∧ Contained A D m w l n { c with stack } := by
  have hne : c.stack.topDown ≠ [] := by simpa [ParseStack.column] using h.column_ne
  obtain ⟨entry, rest, htop⟩ := List.exists_cons_of_ne_nil hne
  obtain ⟨stack, hmodify⟩ : ∃ stack, c.stack.modifyTopSymbol f = .ok stack := by
    rw [ParseStack.modifyTopSymbol, ParseStack.top_eq_ok.mpr (by rw [htop]; rfl)]
    exact ⟨_, rfl⟩
  have hcolumn : stack.column = c.stack.column := by
    rw [ParseStack.column, ParseStack.modifyTopSymbol_eq_ok hmodify htop, ParseStack.column, htop]
    rfl
  exact ⟨stack, hmodify,
    ⟨hcolumn ▸ h.states, hcolumn ▸ h.column_ne, h.fits, h.carries, h.memory_eq⟩, h.buffering⟩

/-- Simulating does not hold back more than a window of tokens, unless there have been more. -/
theorem simulate_returns (hl : p.tables.Leads A D fails) (h : Contained A D m w l n c) (hw : 1 ≤ w)
    (hn : n ≤ w + 2) :
    Returns (Interrupt.Expected fails)
      (fun r => Contained A D m w l (max n w) r.2 ∧
        ∀ ok, r.1.succeeded = .ok ok → Contained A D m w (max l 1) (max n w) r.2)
      (c.simulate p fuel) := by
  obtain ⟨hrewind, hfits⟩ := h.fits.rewind h.buffering
  have hsim : (Simulator.ofStates c.stack.states).Within D := by
    rw [Simulator.Within, Simulator.column_ofStates, ← ParseStack.column_eq_reverse_states]
    exact ⟨h.states, h.column_ne⟩
  rw [simulate, hrewind]
  simp only [liftM_ok, ok_bind]
  refine Returns.bind (Simulation.runTokens_returns (n := max n w) hl hsim h.buffering
    (hfits.mono (Nat.le_refl _) (Nat.le_max_left _ _)) h.carries (Nat.zero_le _) ?_ (by omega)) ?_
  · show 0 + (c.stream.window - 0 - 1) < max n w
    rw [h.fits.window_eq]
    omega
  · rintro run _ ⟨hrun, hcarries, hmode, hdecides⟩
    refine ⟨(h.of_stream hrun hcarries hmode).congr rfl rfl rfl, ?_⟩
    intro ok hok
    have hleast : max l 1 ≤ run.stream.buffered.length :=
      Nat.max_le.mpr ⟨hrun.least, hdecides ok hok⟩
    exact (h.of_stream ⟨hrun.window_eq, hrun.room, hleast, hrun.most⟩ hcarries hmode).congr
      rfl rfl rfl

theorem simulates (h : Contained A D m w l n c) (hw : 1 ≤ w) (hn : n ≤ w + 2)
    (hc' : c.Simulates p fuel c') : c'.stream.Fits w l (max n w) := by
  cases hc' with
  | before => exact h.fits.mono (Nat.le_refl _) (Nat.le_max_left _ _)
  | reading hrewind hpasses =>
    obtain ⟨hmode, rfl⟩ := TokenStream.rewind_eq_ok.mp hrewind
    have hfits := (h.fits.rewind h.buffering).2
    refine hpasses.fits h.buffering (hfits.mono (Nat.le_refl _) (Nat.le_max_left _ _))
      (Nat.zero_le _) ?_ (by omega)
    show 0 + (c.stream.window - 0 - 1) < max n w
    rw [h.fits.window_eq]
    omega

end Contained

/-! ## Edits of the offending token -/

namespace Attempt

variable {S S' F F' : Configuration σ V → Prop} {a : Attempt σ V} {expected : Interrupt → Prop}

/-- What an attempt leaves where it settles the error, and where it fails. -/
def Leaves (S F : Configuration σ V → Prop) : Attempt σ V → Prop
  | .settled r => S r.configuration
  | .failed c => F c

theorem Leaves.mono (h : a.Leaves S F) (hS : ∀ c, S c → S' c) (hF : ∀ c, F c → F' c) :
    a.Leaves S' F' := by
  cases a with
  | settled r => exact hS _ h
  | failed c => exact hF _ h

/-- What is held back does not depend on how the attempt ends. -/
theorem Leaves.fits (h : a.Leaves S F) (hS : ∀ c, S c → c.stream.Fits w l n)
    (hF : ∀ c, F c → c.stream.Fits w l n) : a.configuration.stream.Fits w l n := by
  cases a with
  | settled r => exact hS _ h
  | failed c => exact hF _ h

/-- A second attempt begins with what the first one leaves. -/
theorem Leaves.orElse {second : Configuration σ V → Fueled (Attempt σ V)} (h : a.Leaves S F)
    (hsecond : ∀ c, F c → Returns expected (Leaves S F') (second c)) :
    Returns expected (Leaves S F') (a.orElse second) := by
  cases a with
  | settled r => exact h
  | failed c => exact hsecond c h

theorem Leaves.orFinally {last : Configuration σ V → Fueled (Repair σ V)} (h : a.Leaves S F)
    (hlast : ∀ c, F c → Returns expected (fun r => S r.configuration) (last c)) :
    Returns expected (fun r => S r.configuration) (a.orFinally last) := by
  cases a with
  | settled r => exact h
  | failed c => exact hlast c h

end Attempt

namespace Recovery

variable {strategy : Strategy} {state : StateId} {notice : Symbol V → Notice V}
  {ids : List SymbolId} {unwound depth : Nat} {token : Symbol V}

theorem tryIds_returns (hl : p.tables.Leads A D fails) (h : Contained A D m w l n c) (hw : 1 ≤ w)
    (hwn : w ≤ n) (hn : n ≤ w + 2) (hids : ∀ id ∈ ids, A id) :
    Returns (Interrupt.Expected fails)
      (Attempt.Leaves (Contained A D m w l n) (Contained A D m w l n))
      (tryIds p fuel strategy state notice ids c) := by
  induction ids generalizing c with
  | nil => exact h
  | cons id ids ih =>
    rw [List.forall_mem_cons] at hids
    rw [tryIds]
    apply ((h.modified hids.1).simulate_returns hl hw hn).bind
    rintro ⟨sim, c₁⟩ _ ⟨hkept, -⟩
    rw [Nat.max_eq_left hwn] at hkept
    dsimp only
    split
    · exact (hkept.traced p _).notifyHead notice
    · exact ih hkept hids.2
    · exact hkept

theorem TryingIds.fits (hl : p.tables.Leads A D fails) (h : Contained A D m w l n c) (hw : 1 ≤ w)
    (hwn : w ≤ n) (hn : n ≤ w + 2) (hids : ∀ id ∈ ids, A id)
    (hc' : TryingIds p fuel strategy state notice ids c c') : c'.stream.Fits w l n := by
  have hmax : max n w = n := Nat.max_eq_left hwn
  induction hc' with
  | simulating hsim =>
    exact hmax ▸ (h.modified (hids _ List.mem_cons_self)).simulates hw hn hsim
  | traced hsim _ =>
    have hmodified := h.modified (hids _ List.mem_cons_self)
    have hkept := ((hmodified.simulate_returns hl hw hn).of_eq_ok hsim).1
    exact hmax ▸ (hkept.traced p _).fits
  | next hsim _ _ ih =>
    rw [List.forall_mem_cons] at hids
    have hkept := (((h.modified hids.1).simulate_returns hl hw hn).of_eq_ok hsim).1
    exact ih (hmax ▸ hkept) hids.2
  | done htry =>
    have hleaves := (tryIds_returns hl h hw hwn hn hids).of_eq_ok htry
    exact hleaves.fits (fun _ hc => hc.fits) fun _ hc => hc.fits

/-- An insertion leaves the offending token if it fails. -/
theorem insertMissing_returns (hl : p.tables.Leads A D fails) (h : Contained A D m w 1 w c)
    (hw : 1 ≤ w) (hids : ∀ id ∈ ids, A id) :
    Returns (Interrupt.Expected fails)
      (Attempt.Leaves (Contained A D m w 0 (w + 1)) (Contained A D m w 1 w))
      (insertMissing p fuel state ids c) := by
  cases ids with
  | nil => exact h
  | cons first rest =>
    obtain ⟨below, htop⟩ := h.topSymbol
    obtain ⟨stream, hinsert, hinserted⟩ := h.insert (by omega)
      (x := .empty first below.stop below.stop) (hids first List.mem_cons_self)
    simp only [insertMissing, htop, hinsert, liftM_ok, ok_bind]
    apply (tryIds_returns hl hinserted hw (by omega) (by omega) hids).bind
    intro a _ ha
    cases a with
    | settled r => exact Contained.mono ha (Nat.zero_le _) (Nat.le_refl _)
    | failed mid =>
      obtain ⟨⟨x, stream'⟩, hremove, -, hremoved⟩ := Contained.remove ha
      simp only [Attempt.orElse, hremove, liftM_ok, ok_bind]
      exact hremoved.traced p _

theorem Inserting.fits (hl : p.tables.Leads A D fails) (h : Contained A D m w 1 w c) (hw : 1 ≤ w)
    (hids : ∀ id ∈ ids, A id) (hc' : Inserting p fuel state ids c c') :
    c'.stream.Fits w 0 (w + 1) := by
  have hinserted : ∀ {x : Symbol V} {stream : TokenStream V}, A x.id →
      c.stream.insert 0 x = .ok stream → Contained A D m w 2 (w + 1) { c with stream } := by
    intro x stream hx hinsert
    have hinserted := holds_of_exists (h.insert (by omega) hx) hinsert
    exact hinserted
  cases hc' with
  | trying hcons _ hinsert htrying =>
    have hfirst := hids _ (hcons ▸ List.mem_cons_self)
    exact (htrying.fits hl (hinserted hfirst hinsert) hw (by omega) (by omega) hids).mono
      (by omega) (by omega)
  | removed hcons _ hinsert htry hremove =>
    have hfirst := hids _ (hcons ▸ List.mem_cons_self)
    have hfailed := (tryIds_returns hl (hinserted hfirst hinsert) hw (by omega) (by omega)
      hids).of_eq_ok htry
    obtain ⟨-, hremoved⟩ := holds_of_exists (Contained.remove hfailed) hremove
    exact hremoved.fits.mono (by omega) (by omega)
  | done hdone =>
    have hleaves := (insertMissing_returns hl h hw hids).of_eq_ok hdone
    exact hleaves.fits (fun _ hc => hc.fits) fun _ hc => hc.fits.mono (by omega) (by omega)

/-- A replacement leaves the offending token with its own id if it fails. -/
theorem replaceMisspelled_returns (hl : p.tables.Leads A D fails) (h : Contained A D m w 1 w c)
    (hw : 1 ≤ w) (hids : ∀ id ∈ ids, A id) :
    Returns (Interrupt.Expected fails)
      (Attempt.Leaves (Contained A D m w 1 w) (Contained A D m w 1 w))
      (replaceMisspelled p fuel state ids c) := by
  unfold replaceMisspelled
  split
  · exact h
  · exact h
  · rename_i token _ htoken
    refine Returns.bind (tryIds_returns hl h hw (Nat.le_refl _) (by omega)
      fun id hid => hids id (List.mem_of_mem_filter hid)) ?_
    intro a _ ha
    cases a with
    | settled r => exact ha
    | failed mid => exact (Contained.modified ha (h.carries.peek htoken)).traced p _

theorem Replacing.fits (hl : p.tables.Leads A D fails) (h : Contained A D m w 1 w c) (hw : 1 ≤ w)
    (hids : ∀ id ∈ ids, A id) (hc' : Replacing p fuel state ids c c') :
    c'.stream.Fits w 1 w := by
  have hothers : ∀ {x : SymbolId} (id), id ∈ ids.filter (· != x) → A id :=
    fun id hid => hids id (List.mem_of_mem_filter hid)
  cases hc' with
  | trying _ _ htrying => exact htrying.fits hl h hw (Nat.le_refl _) (by omega) hothers
  | restored _ htoken htry =>
    have hfailed := (tryIds_returns hl h hw (Nat.le_refl _) (by omega) hothers).of_eq_ok htry
    exact (Contained.modified hfailed (h.carries.peek htoken)).fits
  | done hdone =>
    have hleaves := (replaceMisspelled_returns hl h hw hids).of_eq_ok hdone
    exact hleaves.fits (fun _ hc => hc.fits) fun _ hc => hc.fits

/-- A deletion puts the token back in front of what has been read. -/
theorem deleteUnexpected_returns (hl : p.tables.Leads A D fails) (h : Contained A D m w 1 w c)
    (hw : 1 ≤ w) :
    Returns (Interrupt.Expected fails)
      (Attempt.Leaves (Contained A D m w 0 w) (Contained A D m w 1 (w + 1)))
      (deleteUnexpected p fuel state c) := by
  obtain ⟨stream, hrewind, hrewound⟩ := h.rewind
  obtain ⟨⟨token, stream'⟩, hremove, htoken, hremoved⟩ := hrewound.remove
  simp only [deleteUnexpected, hrewind, hremove, liftM_ok, ok_bind]
  apply (hremoved.simulate_returns hl hw (by omega)).bind
  rintro ⟨sim, c₁⟩ _ ⟨hkept, -⟩
  rw [Nat.max_eq_right (Nat.sub_le w 1)] at hkept
  dsimp only
  split
  · exact (hkept.traced p _).congr rfl rfl rfl
  · obtain ⟨stream'', hinsert, hinserted⟩ := hkept.insert (by omega) htoken
    simp only [hinsert, liftM_ok, ok_bind]
    exact hinserted.traced p _
  · exact hkept

theorem Deleting.fits (hl : p.tables.Leads A D fails) (h : Contained A D m w 1 w c) (hw : 1 ≤ w)
    (hc' : Deleting p fuel state c c') : c'.stream.Fits w 0 (w + 1) := by
  -- The token that is taken out leaves one place less filled, so it can go in again.
  have hremoved : ∀ {stream stream' : TokenStream V} {token : Symbol V},
      c.stream.rewind = .ok stream → stream.remove 0 = .ok (token, stream') →
      A token.id ∧ Contained A D m w 0 (w - 1) { c with stream := stream' } := by
    intro stream stream' token hrewind hremove
    have hrewound := holds_of_exists h.rewind hrewind
    have hremoved := holds_of_exists hrewound.remove hremove
    exact hremoved
  have hkept : ∀ {stream' : TokenStream V} {sim mid},
      Contained A D m w 0 (w - 1) ({ c with stream := stream' } : Configuration σ V) →
      ({ c with stream := stream' } : Configuration σ V).simulate p fuel = .ok (sim, mid) →
      Contained A D m w 0 w mid := by
    intro stream' sim mid hremoved hsim
    have hkept := ((hremoved.simulate_returns hl hw (by omega)).of_eq_ok hsim).1
    rwa [Nat.max_eq_right (Nat.sub_le w 1)] at hkept
  cases hc' with
  | rewound hrewind =>
    exact (holds_of_exists h.rewind hrewind).fits.mono (by omega) (by omega)
  | simulating hrewind hremove hsim =>
    exact ((hremoved hrewind hremove).2.simulates hw (by omega) hsim).mono (by omega) (by omega)
  | traced hrewind hremove hsim _ =>
    exact ((hkept (hremoved hrewind hremove).2 hsim).traced p _).fits.mono (by omega) (by omega)
  | restored hrewind hremove hsim _ hinsert =>
    obtain ⟨htoken, hedited⟩ := hremoved hrewind hremove
    have hmid := hkept hedited hsim
    have hinserted := holds_of_exists (hmid.insert (by omega) htoken) hinsert
    exact hinserted.fits.mono (by omega) (by omega)
  | done hdone =>
    have hleaves := (deleteUnexpected_returns hl h hw).of_eq_ok hdone
    exact hleaves.fits (fun _ hc => hc.fits.mono (by omega) (by omega))
      fun _ hc => hc.fits.mono (by omega) (by omega)

/-! ## Error phrases -/

/-- The search of a stack of given states finds one of them. -/
theorem errorShift?_returns (hl : t.Leads A D fails) {error : SymbolId} {s : ParseStack V}
    (hs : ∀ state ∈ s.column, D state) (herror : A error) :
    Returns fails (fun found => ∀ d target, found = some (d, target) → D target)
      (errorShift? t error s depth) := by
  induction depth with
  | zero =>
    intro d target hfound
    cases hfound
  | succ depth ih =>
    rw [errorShift?]
    cases hget : s.entries.get? depth with
    | none =>
      intro d target hfound
      cases hfound
    | some entry =>
      have hmem : entry.state ∈ s.column := by
        have hitems : entry ∈ s.entries.items := Array.mem_of_getElem? hget
        rw [ParseStack.column, ParseStack.topDown, Stack.topDown]
        exact List.mem_map_of_mem (List.mem_reverse.mpr (Array.mem_toList_iff.mpr hitems))
      apply (hl.goto entry.state error (hs _ hmem) herror).bind
      intro action _ haction
      cases action with
      | shift target =>
        intro d target' hfound
        cases hfound
        exact haction target rfl
      | reduce rule => exact ih
      | accept => exact ih
      | error => exact ih

/-- Widening discards no more than what it has read. -/
theorem widenPhrase_returns (hl : p.tables.Leads A D fails)
    (h : Contained A D m w 0 (w + 1) c) (hw : 1 ≤ w) :
    Returns (Interrupt.Expected fails) (fun r => Contained A D m w 0 (w + 1) r.configuration)
      (widenPhrase p state unwound fuel c) := by
  -- By induction on the fuel. Each round takes out the token that its simulation has looked at.
  induction fuel generalizing c with
  | zero => exact returns_error trivial
  | succ fuel ih =>
    rw [widenPhrase]
    apply (h.simulate_returns hl hw (by omega)).bind
    rintro ⟨sim, c₁⟩ _ ⟨hkept, hdecided⟩
    rw [Nat.max_eq_left (Nat.le_succ w)] at hkept hdecided
    dsimp only
    split
    · exact hkept
    · have htraced : Contained A D m w 0 (w + 1) (traceSuccess p .phrase state unwound sim c₁) :=
        hkept.traced p _
      obtain ⟨x, htop⟩ := htraced.topSymbol
      rw [htop]
      exact htraced.congr rfl rfl rfl
    · rename_i hfalse
      obtain ⟨⟨x, stream⟩, hremove, -, hremoved⟩ := (hdecided false hfalse).remove
      simp only [hremove, liftM_ok, ok_bind]
      split
      · exact (hremoved.mono (Nat.le_refl _) (by omega)).traced p _
      · obtain ⟨stack, hmodify, hstack⟩ := hremoved.exists_modified ({ · with stop := x.stop })
        simp only [hmodify, liftM_ok, ok_bind]
        exact ih (hstack.mono (Nat.le_refl _) (by omega))

theorem Widening.fits (hl : p.tables.Leads A D fails) (h : Contained A D m w 0 (w + 1) c)
    (hw : 1 ≤ w) (hc' : Widening p state unwound fuel c c') : c'.stream.Fits w 0 (w + 1) := by
  have hmax : max (w + 1) w = w + 1 := Nat.max_eq_left (Nat.le_succ w)
  have hremoved : ∀ {fuel} {c mid : Configuration σ V} {sim token stream},
      Contained A D m w 0 (w + 1) c →
      c.simulate p fuel = .ok (sim, mid) → sim.succeeded = .ok false →
      mid.stream.remove 0 = .ok (token, stream) → Contained A D m w 0 w { mid with stream } := by
    intro fuel c mid sim token stream h hsim hfalse hremove
    have hdecided := ((h.simulate_returns hl hw (by omega)).of_eq_ok hsim).2 false hfalse
    rw [hmax] at hdecided
    exact (holds_of_exists hdecided.remove hremove).2
  induction hc' with
  | simulating hsim => exact hmax ▸ h.simulates hw (by omega) hsim
  | traced hsim _ =>
    have hkept := ((h.simulate_returns hl hw (by omega)).of_eq_ok hsim).1
    exact hmax ▸ (hkept.traced p _).fits
  | discarded hsim hfalse hremove =>
    exact (hremoved h hsim hfalse hremove).fits.mono (Nat.le_refl _) (Nat.le_succ w)
  | next hsim hfalse hremove _ hmodify _ ih =>
    have hstack := holds_of_exists ((hremoved h hsim hfalse hremove).exists_modified _) hmodify
    exact ih (hstack.mono (Nat.le_refl _) (Nat.le_succ w))
  | done hdone => exact ((widenPhrase_returns hl h hw).of_eq_ok hdone).fits

/-- The configuration in which a phrase begins to be widened. -/
theorem contained_phrase (h : Contained A D m w l n c) {target : StateId} (htarget : D target)
    (depth : Nat) (phrase : Symbol V) :
    Contained A D m w l n
      (({ c with stack := c.stack.truncate depth } : Configuration σ V).push target phrase) := by
  refine ⟨⟨?_, ?_, h.fits, h.carries, h.memory_eq⟩, h.buffering⟩
  · intro s hs
    rw [push_stack, ParseStack.column_push, ParseStack.column_truncate] at hs
    rcases List.mem_cons.mp hs with rfl | hs
    · exact htarget
    · exact h.states s (List.mem_of_mem_drop hs)
  · rw [push_stack, ParseStack.column_push]
    exact List.cons_ne_nil _ _

theorem replacePhrase_returns (hl : p.tables.Leads A D fails)
    (h : Contained A D m w 0 (w + 1) c) (hw : 1 ≤ w) :
    Returns (Interrupt.Expected fails) (fun r => Contained A D m w 0 (w + 1) r.configuration)
      (replacePhrase p fuel state c) := by
  obtain ⟨below, htop⟩ := h.topSymbol
  simp only [replacePhrase, htop, liftM_ok, ok_bind]
  split
  · exact h.traced p _
  · rename_i error herror
    refine Returns.bind (errorShift?_returns hl h.states (hl.errorSymbol error herror)).lift ?_
    rintro (_ | ⟨d, target⟩) _ hfound
    · exact h.traced p _
    · exact widenPhrase_returns hl (contained_phrase h (hfound d target rfl) _ _) hw

theorem ReplacingPhrase.fits (hl : p.tables.Leads A D fails) (h : Contained A D m w 0 (w + 1) c)
    (hw : 1 ≤ w) (hc' : ReplacingPhrase p fuel state c c') : c'.stream.Fits w 0 (w + 1) := by
  cases hc' with
  | unwinding _ _ _ => exact h.fits
  | widening _ herror hsearch hwidening =>
    have herror := hl.errorSymbol _ herror
    have htarget := (errorShift?_returns hl h.states herror).of_eq_ok hsearch _ _ rfl
    exact hwidening.fits hl (contained_phrase h htarget _ _) hw
  | done hdone => exact ((replacePhrase_returns hl h hw).of_eq_ok hdone).fits

/-! ## All strategies -/

/-- The terminals that are tried are given symbols. -/
theorem candidates_returns (hl : t.Leads A D fails) (hs : D state) :
    Returns fails (fun ids => ∀ id ∈ ids, A id) (candidates t state) := by
  have htoList : ∀ (count : Nat) (a : Lookaheads), a.tables = t → a.state = state →
      a.stop ≤ t.terminalCount → a.stop - a.next = count →
      Returns fails (fun ids => ∀ id ∈ ids, A id) a.toList := by
    intro count
    -- By induction on the number of terminals still to look at.
    induction count with
    | zero =>
      intro a _ _ _ hcount
      rw [Lookaheads.toList, dif_neg (by omega)]
      exact fun id hid => absurd hid List.not_mem_nil
    | succ count ih =>
      rintro a rfl rfl hstop hcount
      have hnext : A (UInt16.ofNat a.next) := by
        apply hl.terminal
        rw [UInt16.toNat_ofNat']
        exact Nat.lt_of_le_of_lt (Nat.mod_le _ _) (by omega)
      rw [Lookaheads.toList, dif_pos (by omega)]
      apply (hl.hasLookahead a.state _ hs).bind
      intro valid _ _
      apply (ih { a with next := a.next + 1 } rfl rfl hstop (by simp only; omega)).bind
      intro rest _ hrest
      cases valid with
      | true => exact List.forall_mem_cons.mpr ⟨hnext, hrest⟩
      | false => exact hrest
  have hstop : (t.lookaheads state).stop ≤ t.terminalCount := by
    unfold PackedTables.lookaheads
    split
    · exact Nat.zero_le _
    · exact Nat.le_refl _
  apply (htoList _ (t.lookaheads state) rfl rfl hstop rfl).bind
  intro ids _ hids
  exact fun id hid => hids id (List.mem_of_mem_filter hid)

/-- A parse before recovery: nothing is held back. -/
theorem contained_opened (h : Kept A D m w 0 0 c) (htoken : A token.id) {stream : TokenStream V}
    (hinsert : (c.stream.setBuffering true).insert 0 token = .ok stream) (hw : 1 ≤ w) :
    Contained A D m w 1 w { c with stream } := by
  have hbuffering : Contained A D m w 0 0 { c with stream := c.stream.setBuffering true } :=
    ⟨⟨h.states, h.column_ne, h.fits.setBuffering true, h.carries, h.memory_eq⟩, rfl⟩
  have hinserted := holds_of_exists (hbuffering.insert (by omega) htoken) hinsert
  exact hinserted.mono (Nat.le_refl _) hw

theorem exists_opened (h : Kept A D m w 0 0 c) (token : Symbol V) :
    ∃ stream, (c.stream.setBuffering true).insert 0 token = .ok stream := by
  obtain ⟨stream, hinsert, -⟩ := (h.fits.setBuffering true).insert (by omega) token
  exact ⟨stream, hinsert⟩

/-- Recovery holds back one token more than a window, at most. -/
theorem recover_returns (hl : p.tables.Leads A D fails) (h : Kept A D m w 0 0 c)
    (htoken : A token.id) (hw : 1 ≤ w) :
    Returns (Interrupt.Expected fails)
      (fun r => Kept A D m w 0 (w + 1) r.configuration ∧
        ∀ c', r = .repaired c' → c'.stream.buffering = false)
      (recover p fuel token c) := by
  unfold recover
  split
  · refine ⟨⟨h.states, h.column_ne, h.fits.mono (Nat.le_refl _) (Nat.zero_le _), h.carries,
      h.memory_eq⟩, ?_⟩
    intro c' hc'
    cases hc'
  · obtain ⟨s, below, hcolumn⟩ := List.exists_cons_of_ne_nil h.column_ne
    have hs : D s := h.states s (hcolumn ▸ List.mem_cons_self)
    have htop : c.stack.topState = .ok s := by
      rw [ParseStack.topState_eq_ok, hcolumn]
      rfl
    obtain ⟨stream, hinsert⟩ := exists_opened h token
    have hopened := contained_opened h htoken hinsert hw
    simp only [htop, hinsert, liftM_ok, ok_bind]
    apply (candidates_returns hl hs).lift.bind
    intro ids _ hids
    apply (insertMissing_returns hl hopened hw hids).bind
    intro inserted _ hinserted
    -- Each attempt begins where the one before has failed.
    apply Returns.bind (hinserted.orElse fun c₁ h₁ =>
      (replaceMisspelled_returns hl h₁ hw hids).mono (fun _ he => he)
        fun a _ ha => ha.mono (fun _ hc => hc.mono (by omega) (by omega)) fun _ hc => hc)
    intro replaced _ hreplaced
    apply Returns.bind (hreplaced.orElse fun c₂ h₂ =>
      (deleteUnexpected_returns hl h₂ hw).mono (fun _ he => he)
        fun a _ ha => ha.mono (fun _ hc => hc.mono (by omega) (by omega)) fun _ hc => hc)
    intro deleted _ hdeleted
    apply Returns.bind (hdeleted.orFinally fun c₃ h₃ =>
      replacePhrase_returns hl (h₃.mono (by omega) (Nat.le_refl _)) hw)
    rintro r _ hr
    cases r with
    | repaired c' =>
      refine ⟨⟨hr.states, hr.column_ne, hr.fits.setBuffering false, hr.carries, hr.memory_eq⟩, ?_⟩
      intro c'' hc''
      cases hc''
      rfl
    | aborted e c' =>
      refine ⟨hr.toKept, ?_⟩
      intro c'' hc''
      cases hc''

/-- At every moment of recovery no more is held back. -/
theorem Recovering.fits (hl : p.tables.Leads A D fails) (h : Kept A D m w 0 0 c)
    (htoken : A token.id) (hw : 1 ≤ w) (hc' : Recovering p fuel token c c') :
    c'.stream.Fits w 0 (w + 1) := by
  have hopens : ∀ {s ids c₀}, Opens p token c s ids c₀ →
      Contained A D m w 1 w c₀ ∧ ∀ id ∈ ids, A id := by
    intro s ids c₀ hopens
    obtain ⟨stream, hinsert, rfl⟩ := hopens.opened_eq
    have hs : D s := h.states s (List.mem_of_mem_head? (ParseStack.topState_eq_ok.mp
      hopens.topState_eq))
    exact ⟨contained_opened h htoken hinsert hw,
      (candidates_returns hl hs).of_eq_ok hopens.candidates_eq⟩
  -- A moment is one of some attempt, and all attempts before it have failed.
  cases hc' with
  | buffering _ => exact (h.fits.setBuffering true).mono (Nat.le_refl _) (Nat.zero_le _)
  | inserting hopen hinserting =>
    obtain ⟨h₀, hids⟩ := hopens hopen
    exact hinserting.fits hl h₀ hw hids
  | replacing hopen hinsert hreplacing =>
    obtain ⟨h₀, hids⟩ := hopens hopen
    have h₁ := (insertMissing_returns hl h₀ hw hids).of_eq_ok hinsert
    exact (hreplacing.fits hl h₁ hw hids).mono (by omega) (by omega)
  | deleting hopen hinsert hreplace hdeleting =>
    obtain ⟨h₀, hids⟩ := hopens hopen
    have h₁ := (insertMissing_returns hl h₀ hw hids).of_eq_ok hinsert
    have h₂ := (replaceMisspelled_returns hl h₁ hw hids).of_eq_ok hreplace
    exact hdeleting.fits hl h₂ hw
  | replacingPhrase hopen hinsert hreplace hdelete hphrase =>
    obtain ⟨h₀, hids⟩ := hopens hopen
    have h₁ := (insertMissing_returns hl h₀ hw hids).of_eq_ok hinsert
    have h₂ := (replaceMisspelled_returns hl h₁ hw hids).of_eq_ok hreplace
    have h₃ := (deleteUnexpected_returns hl h₂ hw).of_eq_ok hdelete
    exact hphrase.fits hl (Contained.mono h₃ (by omega) (Nat.le_refl _)) hw
  | done hdone => exact ((recover_returns hl h htoken hw).of_eq_ok hdone).1.fits

end Recovery

end ShiftReduce
