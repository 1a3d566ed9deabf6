import ShiftReduce.Proofs.Parser.Safety

/-!
# Bounded buffering

Whatever is held back at any moment of a parse is one token more than the window, at most.
Leftovers of one recovery do not add up with those of the next: a repair is only made when
a window of tokens has confirmed it, and these are just the tokens that the parser then
shifts before it can meet another error.

This holds for all tables. Where they are not closed, a lookup may fail, and then the parse
is over.
-/

namespace ShiftReduce.Parser

open ShiftReduce.Configuration

variable {σ V : Type} {A : SymbolId → Prop} {D : StateId → Prop} {fails : Breach → Prop}
  {p : Parser σ V} {fuel : Nat} {c c' : Configuration σ V} {token : Symbol V} {q : Progress σ V}
  {scanner : Scanner V} {b : Breach}

theorem Settled.fits (h : p.Settled A D q) :
    q.configuration.stream.Fits p.window 0 (p.window + 1) := by
  cases q with
  | running token c => exact Steady.fits h |>.mono (Nat.le_refl _) (Nat.le_succ _)
  | finished result c => exact h

/-- What is held back within a step. -/
theorem Stepping.fits (hl : p.tables.Leads A D fails) (h : p.Steady A D token c)
    (hc' : p.Stepping fuel token c c') : c'.stream.Fits p.window 0 (p.window + 1) := by
  have hfits : c.stream.Fits p.window 0 (p.window + 1) :=
    h.fits.mono (Nat.le_refl _) (Nat.le_succ _)
  have hkept : ∀ {entry : Entry V}, c.stack.top = .ok entry →
      p.tables.action entry.state token.id = .ok .error →
      Kept A D c.memory p.window 0 0 (c.reported token) := by
    intro entry htop hact
    obtain ⟨below, hcol⟩ := ParseStack.column_of_top htop
    exact h.kept_reported hcol hact
  cases hc' with
  | shifted _ _ =>
    rw [shifted_stream]
    exact hfits
  | reduced _ _ _ _ _ _ =>
    rw [reduced_stream]
    exact hfits
  | reported _ _ => exact hfits
  | recovering htop hact _ _ hrecovering =>
    exact hrecovering.fits hl (hkept htop hact) h.asked p.one_le_window
  | recovered htop hact _ _ hrecover =>
    have hafter := (Recovery.recover_returns hl (hkept htop hact) h.asked p.one_le_window).of_eq_ok
      hrecover
    exact hafter.1.fits
  | done hstep => exact Settled.fits ((h.step_returns hl).of_eq_ok hstep)

/-- What is held back at any moment of a parse. -/
theorem Moment.fits (hl : p.tables.Leads A D fails) (hA : ∀ x, A x) (h : p.Moment c) :
    c.stream.Fits p.window 0 (p.window + 1) := by
  cases h with
  | opened hopen =>
    exact (TokenStream.ofScanner_fits hopen).mono (Nat.le_refl _) (Nat.zero_le _)
  | marked hopen hlead =>
    have hfits := holds_of_exists
      ((TokenStream.ofScanner_fits hopen).withLeading (Nat.zero_le _) (goalMarker _)) hlead
    exact hfits.mono (Nat.zero_le _) (Nat.succ_le_succ (Nat.zero_le _))
  | between hreach => exact (hreach.settled hl hA).fits
  | amid hreach hstepping => exact hstepping.fits hl (hreach.settled hl hA)

/-- A buffer that cannot be had has not been overrun. -/
theorem openingFault_ne_ringFull (window : Nat) : TokenStream.openingFault window ≠ .ringFull := by
  unfold TokenStream.openingFault
  split
  · intro h
    cases h
  · intro h
    cases h

/-- A parse runs out of room in the buffer only if an action says so. -/
theorem Fails.exists_action (h : p.Fails (· = .indexOutOfBounds) .ringFull) :
    ∃ rule args memory, p.actions.reduce rule args memory = .error .ringFull := by
  cases h with
  | lookup hb => cases hb
  | action hb => exact ⟨_, _, _, hb⟩

/-- At every call of recovery the buffer is empty, and at every moment of a parse it holds
one token more than the window, at most, so that there is room for another one. No parse
overruns the buffer, unless an action fails in this way by itself. -/
theorem buffering_is_bounded (p : Parser σ V) :
    (∀ token c entry, p.Reachable (.running token c) → c.stack.top = .ok entry →
      p.tables.action entry.state token.id = .ok .error →
      (c.reported token).stream.buffered = []) ∧
    (∀ c, p.Moment c →
      c.stream.buffered.length ≤ max p.settings.window 1 + 1 ∧
        c.stream.buffered.length + 1 < c.stream.buffer.capacity) ∧
    ((∀ rule args memory, p.actions.reduce rule args memory ≠ .error .ringFull) →
      ∀ fuel scanner memory,
        p.parse fuel scanner memory ≠ .error (.breach .ringFull) ∧
        ∀ marker, p.parseGoal fuel scanner marker memory ≠ .error (.breach .ringFull)) := by
  have hl := p.tables.leads_anywhere
  refine ⟨?_, ?_, ?_⟩
  · intro token c entry hreach htop hact
    obtain ⟨below, hcol⟩ := ParseStack.column_of_top htop
    have hsteady : p.Steady _ _ token c := hreach.settled hl fun _ => trivial
    exact hsteady.buffered_eq_nil hcol hact
  · intro c hmoment
    obtain ⟨-, hroom, -, hmost⟩ := hmoment.fits hl fun _ => trivial
    unfold window at hmost hroom
    exact ⟨hmost, by omega⟩
  · intro hactions fuel scanner memory
    have hfails : ¬ p.Fails (· = .indexOutOfBounds) .ringFull := by
      intro h
      obtain ⟨rule, args, memory, hb⟩ := h.exists_action
      exact hactions rule args memory hb
    have hparse : ∀ goal, p.parseFor fuel scanner memory goal ≠ .error (.breach .ringFull) := by
      intro goal h
      by_cases hopenable : p.Openable
      · exact hfails ((parseFor_returns hl hopenable (fun _ _ => trivial)
          fun _ _ => trivial).of_eq_error h)
      · rw [parseFor_of_not_openable hopenable] at h
        exact openingFault_ne_ringFull _ (by injection h with h; injection h)
    exact ⟨hparse none, fun marker => hparse (some marker)⟩

/-- Behind a letter another one is the first syntax error, and it is repaired. -/
theorem exists_second_letter : ∃ c, oneLetter.Reachable (.running letter c) ∧
    c.stack.top = .ok ⟨1, letter⟩ ∧ (c.reported letter).stats.syntaxErrors = 1 ∧
    (Recovery.recover oneLetter 10 letter (c.reported letter)).toOption.any
      Repair.isRepaired = true := by
  refine ⟨_, ⟨.ofTokens [letter, letter], _, _, @Starts.parse _ _ oneLetter _ _ () _ rfl rfl,
    .single (@Step.intro _ _ oneLetter 10 _ _ _ rfl)⟩, rfl, rfl, ?_⟩
  decide +kernel

/-- A second letter is repaired with nothing held back before. -/
theorem buffering_is_bounded_oneLetter : ∃ c c',
    oneLetter.Reachable (.running letter c) ∧ (c.reported letter).stream.buffered = [] ∧
      Recovery.recover oneLetter 10 letter (c.reported letter) = .ok (.repaired c') ∧
      c'.stream.buffered.length ≤ 4 ∧ c'.stream.buffered.length + 1 < c'.stream.buffer.capacity ∧
      oneLetter.parse 10 (.ofTokens [letter, letter]) () ≠ .error (.breach .ringFull) := by
  obtain ⟨c, hreach, htop, herrors, hrecover⟩ := exists_second_letter
  obtain ⟨r, hr, hrepaired⟩ := exists_ok_of_any hrecover
  obtain ⟨hempty, hbounds, hroom⟩ := buffering_is_bounded oneLetter
  have hact : oneLetter.tables.action 1 letter.id = .ok .error := rfl
  cases r with
  | aborted e c' => cases hrepaired
  | repaired c' =>
    have hmoment : oneLetter.Moment c' :=
      .amid hreach (.recovering htop hact rfl (by rw [herrors]; decide) (.done hr))
    obtain ⟨hmost, hcapacity⟩ := hbounds c' hmoment
    have hactions : ∀ rule args memory,
        oneLetter.actions.reduce rule args memory ≠ .error .ringFull := by
      intro rule args memory h
      cases h
    exact ⟨c, c', hreach, hempty letter c _ hreach htop hact, hr, hmost, hcapacity,
      (hroom hactions _ _ _).1⟩

end ShiftReduce.Parser
