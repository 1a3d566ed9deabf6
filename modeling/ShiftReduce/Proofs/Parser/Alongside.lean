import ShiftReduce.Proofs.Parser.Compression
import ShiftReduce.Proofs.Parser.Settings
import ShiftReduce.Proofs.Stream.Room

/-!
# Parses side by side

A parser with more lenient settings makes the same steps as another one, up to where that one
gives up at a syntax error. As long as the stricter parser recovers, both are in the same
configuration. If it does not recover, their windows may differ, and so their buffers have
room for different numbers of tokens; but what the streams have to deliver is the same.

* `Settings.Lenient` and `Settings.Stricter`: settings that allow more, and why a parser gives
  up with the stricter ones.
* `Alongside`: the configurations of the two parsers, which are in lockstep between syntax errors.
* `step_alongside`: one step, and `Stepping.alongside`: the moments of a step.
-/

namespace ShiftReduce

variable {σ V : Type}

/-! ## Settings -/

/-- Settings with which a parser goes on at least as far, and in the same way. The comparison is
loose if the windows may be different; this takes a parser that does not recover. -/
structure Settings.Lenient (loose : Bool) (s s' : Settings) : Prop where
  trace_eq : s'.trace = s.trace
  recovery_on : s.recovery = true → s'.recovery = true
  maxErrors_le : s.recovery = true → s.maxErrors ≤ s'.maxErrors
  window_eq : loose = false → s'.window = s.window
  recovery_off : loose = true → s.recovery = false

/-- Why a parser gives up at a syntax error at which it would go on with other settings. -/
inductive Settings.Stricter (s s' : Settings) : Unrecoverable → Prop
  | disabled : s.recovery = false → s'.recovery = true → Stricter s s' .recoveryDisabled
  | limited : s.recovery = true → Stricter s s' .tooManyErrors

/-! ## Streams -/

namespace TokenStream

variable {s s' : TokenStream V} {d : Delivery V}

/-- Streams that pass through and have the same to deliver. Their buffers may have different
room. -/
structure Matches (s s' : TokenStream V) : Prop where
  passing : s.buffering = false
  passing' : s'.buffering = false
  scanner_eq : s'.scanner = s.scanner
  buffered_eq : s'.buffered = s.buffered

namespace Matches

/-- Both deliver the same token, or meet the same fault. -/
theorem next (h : s.Matches s') (hnext : s.next = .ok d) :
    ∃ d', s'.next = .ok d' ∧ d'.lexical = d.lexical ∧ d'.result = d.result ∧
      d.stream.Matches d'.stream := by
  have hbuffered := h.buffered_eq
  cases hbuf : s.buffered with
  | nil =>
    rw [hbuf] at hbuffered
    have hempty : s.buffer.isEmpty = true := s.buffer.isEmpty_iff_toList.mpr hbuf
    have hempty' : s'.buffer.isEmpty = true := s'.buffer.isEmpty_iff_toList.mpr hbuffered
    rw [TokenStream.next, if_neg (by simp [h.passing]), if_pos hempty] at hnext
    cases hnext
    rw [TokenStream.next, if_neg (by simp [h.passing']), if_pos hempty', h.scanner_eq]
    exact ⟨_, rfl, rfl, rfl, h.passing, h.passing', rfl, h.buffered_eq⟩
  | cons token rest =>
    rw [hbuf] at hbuffered
    obtain ⟨buffer, hrest, heq⟩ := next_of_buffered h.passing hbuf
    obtain ⟨buffer', hrest', heq'⟩ := next_of_buffered h.passing' hbuffered
    rw [heq] at hnext
    cases hnext
    exact ⟨_, heq', rfl, rfl, h.passing, h.passing', h.scanner_eq, hrest'.trans hrest.symm⟩

end Matches

end TokenStream

/-! ## Configurations -/

/-- Configurations that two parsers are in, of which the second one has more lenient settings. -/
inductive Alongside (loose : Bool) (c : Configuration σ V) : Configuration σ V → Prop
  | same : Alongside loose c c
  | apart {stream : TokenStream V} : loose = true → c.stream.Matches stream →
      Alongside loose c { c with stream }

/-- Configurations that are the same but for the room in the buffers of their streams. -/
structure Configuration.Alike (c c' : Configuration σ V) : Prop where
  stack_eq : c'.stack = c.stack
  stats_eq : c'.stats = c.stats
  notices_eq : c'.notices = c.notices
  memory_eq : c'.memory = c.memory
  scanner_eq : c'.stream.scanner = c.stream.scanner
  buffered_eq : c'.stream.buffered = c.stream.buffered

namespace Alongside

variable {loose : Bool} {p : Parser σ V} {c c' : Configuration σ V} {s : Settings}

theorem eq_of_strict (h : Alongside false c c') : c' = c := by
  cases h with
  | same => rfl
  | apart hloose _ => cases hloose

theorem alike (h : Alongside loose c c') : c.Alike c' := by
  cases h with
  | same => exact ⟨rfl, rfl, rfl, rfl, rfl, rfl⟩
  | apart _ hmatches =>
    exact ⟨rfl, rfl, rfl, rfl, hmatches.scanner_eq, hmatches.buffered_eq⟩

/-- What does not touch the stream keeps configurations alongside each other. -/
theorem map (h : Alongside loose c c') (f : Configuration σ V → Configuration σ V)
    (hf : ∀ c stream, f { c with stream } = { f c with stream })
    (hstream : ∀ c, (f c).stream = c.stream) : Alongside loose (f c) (f c') := by
  cases h with
  | same => exact .same
  | @apart stream hloose hmatches =>
    rw [hf c stream]
    refine .apart hloose ?_
    rw [hstream]
    exact hmatches

theorem trace (h : Alongside loose c c') (p : Parser σ V) (event : TraceEvent) :
    Alongside loose (c.trace p event) (c'.trace p event) := by
  refine h.map (·.trace p event) (fun c stream => ?_) (·.trace_stream p event)
  unfold Configuration.trace
  split <;> rfl

theorem next (h : Alongside loose c c') : Agree
    (fun d d' => d'.lexical = d.lexical ∧ d'.result = d.result ∧
      Alongside loose { c with stream := d.stream } { c' with stream := d'.stream })
    c.stream.next c'.stream.next := by
  cases h with
  | same => exact .refl (fun _ => ⟨rfl, rfl, .same⟩) _
  | @apart stream hloose hmatches =>
    obtain ⟨d, hd⟩ := TokenStream.exists_next hmatches.passing
    obtain ⟨d', hd', hlexical, hresult, hmatches'⟩ := hmatches.next hd
    rw [hd, hd']
    exact .ok ⟨hlexical, hresult, .apart hloose hmatches'⟩

/-- Between syntax errors parsers do not look at their settings, if both trace or neither does. -/
theorem lockstep (htrace : s.trace = p.settings.trace) :
    Lockstep p (p.withSettings s) (Alongside loose) where
  tables_eq := rfl
  actions_eq := rfl
  stack_eq h := h.alike.stack_eq
  memory_eq h := h.alike.memory_eq
  of_stack h stack := h.map ({ · with stack }) (fun _ _ => rfl) fun _ => rfl
  of_memory h memory := h.map ({ · with memory }) (fun _ _ => rfl) fun _ => rfl
  count h f := h.map (·.count f) (fun _ _ => rfl) fun _ => rfl
  told {_ _ more} h _ := h.map (fun c => { c with notices := c.notices ++ more.toArray })
    (fun _ _ => rfl) fun _ => rfl
  trace h event := by
    rw [Configuration.trace_withSettings htrace]
    exact h.trace p event
  next := next

end Alongside

/-! ## Steps -/

namespace Parser

variable {loose : Bool} {p : Parser σ V} {s : Settings} {fuel : Nat} {token : Symbol V}
  {c c' d : Configuration σ V} {q q' r : Progress σ V}

/-- The end of a parse that is given up at a syntax error. -/
def givenUp (reason : Unrecoverable) (token : Symbol V) (c : Configuration σ V) :
    Progress σ V :=
  .finished (.error (.unrecoverable reason token.start)) (c.reported token)

/-- How a parse goes on behind recovery. -/
def settle : Repair σ V → Fueled (Progress σ V)
  | .repaired c => liftM (c.count fun stats =>
      { stats with errorsRecovered := stats.errorsRecovered + 1 }).readToken
  | .aborted e c => .ok (.finished (.error e) c)

theorem repair_of_disabled (h : p.settings.recovery = false) (fuel : Nat) (token : Symbol V)
    (c : Configuration σ V) :
    p.repair fuel token c = .ok (givenUp .recoveryDisabled token c) := by
  simp only [repair, h]
  rfl

theorem repair_of_many (h : p.settings.recovery = true)
    (hmany : p.settings.maxErrors < (c.reported token).stats.syntaxErrors) (fuel : Nat) :
    p.repair fuel token c = .ok (givenUp .tooManyErrors token c) := by
  rw [repair, h]
  exact if_pos hmany

theorem repair_of_few (h : p.settings.recovery = true)
    (hfew : (c.reported token).stats.syntaxErrors ≤ p.settings.maxErrors) (fuel : Nat) :
    p.repair fuel token c = Recovery.recover p fuel token (c.reported token) >>= settle := by
  rw [repair, h]
  refine (if_neg (Nat.not_lt.mpr hfew)).trans (bind_congr fun r => ?_)
  cases r <;> rfl

/-- A parser gives up at a syntax error, and with other settings it would go on. -/
structure StopsShort (p : Parser σ V) (s : Settings) (reason : Unrecoverable)
    (token : Symbol V) (c : Configuration σ V) : Prop where
  stricter : p.settings.Stricter s reason
  errs : p.Errs token c
  step_eq : ∀ fuel, p.step fuel token c = .ok (givenUp reason token c)

theorem Errs.alongside (h : p.Errs token c) {loose : Bool} (hc : Alongside loose c c')
    (s : Settings) : (p.withSettings s).Errs token c' := by
  obtain ⟨entry, htop, hact⟩ := h
  exact ⟨entry, hc.alike.stack_eq ▸ htop, hact⟩

section

variable (hs : p.settings.Lenient loose s)

include hs

/-- Parsers that recover are in the same configuration. -/
theorem eq_of_recovery (hrecovery : p.settings.recovery = true) (h : Alongside loose c c') :
    c' = c := by
  cases h with
  | same => rfl
  | apart hloose _ =>
    rw [hs.recovery_off hloose] at hrecovery
    cases hrecovery

/-- At a syntax error both parsers do the same, or the stricter one gives up. -/
theorem repair_alongside (h : Alongside loose c c') (token : Symbol V) :
    (∀ fuel, Agree (Progress.Related (Alongside loose)) (p.repair fuel token c)
        ((p.withSettings s).repair fuel token c')) ∨
      ∃ reason, p.settings.Stricter s reason ∧
        ∀ fuel, p.repair fuel token c = .ok (givenUp reason token c) := by
  have l : Lockstep p (p.withSettings s) (Alongside loose) := Alongside.lockstep hs.trace_eq
  cases hrecovery : p.settings.recovery with
  | false =>
    cases hother : s.recovery with
    | false =>
      refine .inl fun fuel => ?_
      rw [repair_of_disabled hrecovery, @repair_of_disabled _ _ (p.withSettings s) hother]
      exact .ok (.finished (l.reported h token))
    | true =>
      refine .inr ⟨_, .disabled hrecovery hother, fun fuel => ?_⟩
      exact repair_of_disabled hrecovery fuel token c
  | true =>
    obtain rfl := eq_of_recovery hs hrecovery h
    by_cases hfew : (c'.reported token).stats.syntaxErrors ≤ p.settings.maxErrors
    · refine .inl fun fuel => ?_
      have hfew' := Nat.le_trans hfew (hs.maxErrors_le hrecovery)
      rw [repair_of_few hrecovery hfew,
        @repair_of_few _ _ (p.withSettings s) _ _ (hs.recovery_on hrecovery) hfew',
        Recovery.recover_withSettings hs.trace_eq]
      exact .refl (Progress.Related.refl fun _ => .same) _
    · exact .inr ⟨_, .limited hrecovery, repair_of_many hrecovery (Nat.not_le.mp hfew)⟩

/-- Both parsers make the same step, or the stricter one gives up. -/
theorem step_alongside (h : Alongside loose c c') (token : Symbol V) :
    (∀ fuel, Agree (Progress.Related (Alongside loose)) (p.step fuel token c)
        ((p.withSettings s).step fuel token c')) ∨
      ∃ reason, p.StopsShort s reason token c := by
  have l : Lockstep p (p.withSettings s) (Alongside loose) := Alongside.lockstep hs.trace_eq
  by_cases herrs : p.Errs token c
  · rcases repair_alongside hs h token with hagree | ⟨reason, hstricter, hstop⟩
    · exact .inl fun fuel => l.step h fuel token fun _ _ _ => hagree fuel
    · refine .inr ⟨reason, hstricter, herrs, fun fuel => ?_⟩
      obtain ⟨entry, htop, hact⟩ := herrs
      rw [step_eq_act htop hact]
      exact hstop fuel
  · exact .inl fun fuel => l.step h fuel token fun entry htop hact =>
      absurd ⟨entry, htop, hact⟩ herrs

/-- What happens in the course of a step also happens with more lenient settings. -/
theorem Stepping.alongside (hd : p.Stepping fuel token c d)
    (h : Alongside loose c c') :
    ∃ d', (p.withSettings s).Stepping fuel token c' d' ∧
      Alongside loose d d' := by
  -- At moments of recovery the two are equal, and elsewhere they agree on the stack.
  have l : Lockstep p (p.withSettings s) (Alongside loose) := Alongside.lockstep hs.trace_eq
  have hstack := h.alike.stack_eq
  cases hd with
  | shifted htop hact =>
    exact ⟨_, .shifted (hstack ▸ htop) hact, l.shifted h _ token⟩
  | reduced htop hact hrule hlength hsymbols hvalue =>
    rw [← hstack] at htop hlength hsymbols hvalue
    rw [← h.alike.memory_eq] at hvalue
    exact ⟨_, .reduced htop hact hrule hlength hsymbols hvalue, l.reduced h _ _ _⟩
  | reported htop hact => exact ⟨_, .reported (hstack ▸ htop) hact, l.reported h token⟩
  | recovering htop hact hrecovery hfew hrecovering =>
    obtain rfl := eq_of_recovery hs hrecovery h
    exact ⟨_, .recovering htop hact (hs.recovery_on hrecovery)
      (Nat.le_trans hfew (hs.maxErrors_le hrecovery)) (hrecovering.withSettings hs.trace_eq), .same⟩
  | recovered htop hact hrecovery hfew hrecover =>
    obtain rfl := eq_of_recovery hs hrecovery h
    rw [← Recovery.recover_withSettings hs.trace_eq] at hrecover
    exact ⟨_, .recovered htop hact (hs.recovery_on hrecovery)
      (Nat.le_trans hfew (hs.maxErrors_le hrecovery)) hrecover, .same⟩
  | done hstep =>
    rcases step_alongside hs h token with hagree | ⟨reason, hstop⟩
    · obtain ⟨q', hstep', hq⟩ := (hagree fuel).exists_ok hstep
      exact ⟨_, .done hstep', hq.configuration⟩
    · rw [hstop.step_eq] at hstep
      cases hstep
      obtain ⟨entry, htop, hact⟩ := hstop.errs
      exact ⟨_, .reported (hstack ▸ htop) hact, l.reported h token⟩

end

end Parser

end ShiftReduce
