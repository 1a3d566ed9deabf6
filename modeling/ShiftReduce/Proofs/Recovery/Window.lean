import ShiftReduce.Proofs.Parser.Spans
import ShiftReduce.Proofs.Recovery.Invariants
import ShiftReduce.Proofs.Window

/-!
# Recovery with a narrower window

What a simulation confirms with a wide window it confirms with a narrow one. So no way to go on is
lost by a narrower window, and an error phrase is not made wider.

* `Configuration.Narrower`: the same stack over the same feed, with a narrower window.
* `Narrower.simulate` and `Narrower.edited`: what simulations and edits make of it.
* `Discards` and `PhraseDiscards`: how many tokens a phrase takes.
* `wider_window_is_stricter`: all of it together.
-/

namespace ShiftReduce

open ShiftReduce.Configuration Simulation TokenStream

variable {σ V : Type} {p p' : Parser σ V} {fuel k k' unwound : Nat} {ok ok' : Bool}
  {c c' d d' : Configuration σ V} {sim sim' : Simulation V} {s s' : TokenStream V}
  {r r' : Repair σ V} {state : StateId}

namespace Configuration

/-- A configuration in recovery that has a window no wider than another one, with the same stack
and over a stream that delivers the same. -/
structure Narrower (c c' : Configuration σ V) : Prop where
  stack_eq : c.stack = c'.stack
  feed_eq : c.stream.feed = c'.stream.feed
  window_le : c.stream.window ≤ c'.stream.window
  buffering : c.stream.buffering = true
  spacious : c.stream.Spacious

/-- What becomes of the stream in a simulation that has an answer. -/
theorem simulate_stream (h : c.simulate p fuel = .ok (sim, d)) (hok : sim.succeeded = .ok ok) :
    d.stream.feed = c.stream.feed ∧ d.stream.window = c.stream.window ∧
      d.stream.buffer.capacity = c.stream.buffer.capacity ∧ d.stream.buffering = true ∧
      d.stream.buffered ≠ [] := by
  obtain ⟨stream, hrewind, h⟩ := bind_eq_ok.mp h
  obtain ⟨run, hrun, h⟩ := bind_eq_ok.mp h
  cases h
  obtain ⟨hmode, rfl⟩ := rewind_eq_ok.mp (liftM_eq_ok.mp hrewind)
  have hproceeds := proceeds_of_runTokens hrun
  obtain ⟨hahead, -⟩ := hproceeds.passes.readAhead hmode (Nat.zero_le _)
  have hread : 0 < sim.stream.read := by
    have hlt := hproceeds.read_lt
    rw [deliveries, hok] at hlt
    exact hlt
  refine ⟨hproceeds.feed_eq hok, hahead.window_eq, hahead.capacity_eq, hahead.buffering, ?_⟩
  intro hnil
  have hle := hahead.cursor_le
  rw [show sim.stream.buffered = [] from hnil] at hle
  exact absurd (Nat.lt_of_lt_of_le hread hle) (Nat.lt_irrefl 0)

namespace Narrower

/-- Another configuration that differs in the stack alone, or in what has been told and counted. -/
theorem of_stream (h : c.Narrower c') (hstack : d.stack = d'.stack)
    (hfeed : d.stream.feed = d'.stream.feed) (hwindow : d.stream.window = c.stream.window)
    (hwindow' : d'.stream.window = c'.stream.window)
    (hcapacity : d.stream.buffer.capacity = c.stream.buffer.capacity)
    (hmode : d.stream.buffering = true) : d.Narrower d' :=
  ⟨hstack, hfeed, by rw [hwindow, hwindow']; exact h.window_le, hmode,
    h.spacious.of_eq hwindow hcapacity⟩

/-- With the narrower window a simulation comes to the same, or it succeeds before. -/
theorem simulate (h : c.Narrower c') (htables : p.tables = p'.tables)
    (hsim : c'.simulate p' fuel = .ok (sim', d')) :
    ∃ sim d, c.simulate p fuel = .ok (sim, d) ∧ sim.Milder sim' := by
  obtain ⟨stream, hrewind, hsim⟩ := bind_eq_ok.mp hsim
  obtain ⟨run', hrun', hsim⟩ := bind_eq_ok.mp hsim
  cases hsim
  obtain ⟨-, rfl⟩ := rewind_eq_ok.mp (liftM_eq_ok.mp hrewind)
  rw [run_eq_runWith, ← htables, ← h.stack_eq] at hrun'
  have hmode : ({ c.stream with read := 0 } : TokenStream V).buffering = true := h.buffering
  obtain ⟨run, hrun, hmilder⟩ : ∃ run, runWith p.tables fuel ⟨.empty, 0⟩ c.stack.states
      { c.stream with read := 0 } = .ok run ∧ run.Milder sim' :=
    runWith_milder hrun' hmode rfl rfl (h.spacious.of_eq rfl rfl) h.window_le
      fun i _ => congrArg (·.get i) h.feed_eq
  refine ⟨run, c.simulating run.stream run.lexical, ?_, hmilder⟩
  rw [Configuration.simulate, rewind_eq_ok.mpr ⟨h.buffering, rfl⟩]
  simp only [liftM_ok, ok_bind, run_eq_runWith, hrun]
  rfl

/-- After simulations that have answers all is as before. -/
theorem simulated (h : c.Narrower c') (hsim : c.simulate p fuel = .ok (sim, d))
    (hok : sim.succeeded = .ok ok) (hsim' : c'.simulate p' fuel = .ok (sim', d'))
    (hok' : sim'.succeeded = .ok ok') : d.Narrower d' := by
  obtain ⟨hfeed, hwindow, hcapacity, hmode, -⟩ := simulate_stream hsim hok
  obtain ⟨hfeed', hwindow', -⟩ := simulate_stream hsim' hok'
  refine h.of_stream ?_ ?_ hwindow hwindow' hcapacity hmode
  · rw [Recovery.simulate_stack hsim, Recovery.simulate_stack hsim', h.stack_eq]
  · rw [hfeed, hfeed', h.feed_eq]

/-- The same edits in front of both, with any stack. -/
theorem edited (h : c.Narrower c') (stack : ParseStack V) {edits : List (HeadEdit V)}
    {answers : List (Answer V)}
    (hedits : c.stream.performAll (edits.map HeadEdit.operation) = .ok (answers, s))
    (hedits' : c'.stream.performAll (edits.map HeadEdit.operation) = .ok (answers, s')) :
    ({ c with stack, stream := s } : Configuration σ V).Narrower
      { c' with stack, stream := s' } := by
  obtain ⟨hwindow, hcapacity, hmode⟩ := same_of_edits hedits
  obtain ⟨hwindow', -⟩ := same_of_edits hedits'
  exact h.of_stream rfl (feed_performAll h.feed_eq hedits hedits') hwindow hwindow' hcapacity
    (hmode.trans h.buffering)

/-- The first token is taken out of both. -/
theorem removed {token : Symbol V} (h : c.Narrower c') (hne : c.stream.buffered ≠ [])
    (hremove' : c'.stream.remove 0 = .ok (token, s')) :
    ∃ s, c.stream.remove 0 = .ok (token, s) ∧ ∀ stack : ParseStack V,
      ({ c with stack, stream := s } : Configuration σ V).Narrower
        { c' with stack, stream := s' } := by
  have hpos : 0 < c.stream.buffer.length := by
    rw [← length_buffered]
    exact List.length_pos_iff.mpr hne
  obtain ⟨⟨x, buffer⟩, hpop⟩ := exists_removeNear (Nat.zero_le 1) hpos
  obtain ⟨s, hremove⟩ : ∃ s, c.stream.remove 0 = .ok (x, s) := ⟨_, by rw [remove, hpop]; rfl⟩
  have hfeed := h.feed_eq
  rw [feed_remove hremove, feed_remove hremove'] at hfeed
  obtain rfl : x = token := Except.ok.inj (Stream'.cons_injective2 hfeed).1
  have hdeletion {s₀ s₁ : TokenStream V} (hremoved : s₀.remove 0 = .ok (x, s₁)) :
      s₀.performAll ([HeadEdit.deletion].map HeadEdit.operation) = .ok ([.removed x], s₁) := by
    simp only [List.map_cons, List.map_nil, HeadEdit.operation, performAll, perform, hremoved,
      ok_bind, pure_ok]
  exact ⟨s, hremove, fun stack => h.edited stack (hdeletion hremove) (hdeletion hremove')⟩

end Narrower

end Configuration

theorem ParseStack.exists_topSymbol_of_modify {stack stack' : ParseStack V}
    {f : Symbol V → Symbol V} (h : stack.modifyTopSymbol f = .ok stack') :
    ∃ x, stack'.topSymbol = .ok x := by
  obtain ⟨entry, htop, -⟩ := bind_eq_ok.mp h
  rw [top_eq_ok] at htop
  obtain ⟨below, hcolumn⟩ := List.head?_eq_some_iff.mp htop
  exact ⟨_, topSymbol_eq_ok.mpr ⟨_, by rw [modifyTopSymbol_eq_ok h hcolumn]; rfl, rfl⟩⟩

namespace Recovery

/-! ## How many tokens a phrase takes -/

/-- The rounds of widening a phrase, with the number of tokens that have been discarded. -/
inductive Discards (p : Parser σ V) (state : StateId) (unwound : Nat) :
    Nat → Configuration σ V → Nat → Repair σ V → Prop
  | faulty {fuel : Nat} {c d : Configuration σ V} {sim : Simulation V} {fault : ScanError} :
      c.simulate p fuel = .ok (sim, d) → sim.succeeded = .error fault →
      Discards p state unwound (fuel + 1) c 0 (.aborted (.scanner fault) d)
  | confirmed {fuel : Nat} {c d : Configuration σ V} {sim : Simulation V} {top : Symbol V} :
      c.simulate p fuel = .ok (sim, d) → sim.succeeded = .ok true → d.stack.topSymbol = .ok top →
      Discards p state unwound (fuel + 1) c 0
        (.repaired ((traceSuccess p .phrase state unwound sim d).notify (.phraseRemoved top)))
  | exhausted {fuel : Nat} {c d : Configuration σ V} {sim : Simulation V} {token : Symbol V}
      {stream : TokenStream V} : c.simulate p fuel = .ok (sim, d) → sim.succeeded = .ok false →
      d.stream.remove 0 = .ok (token, stream) → token.isEof = true →
      Discards p state unwound (fuel + 1) c 1
        (.aborted (.unrecoverable .inputExhausted token.start)
          (traceFailure p .phrase state unwound { d with stream }))
  | next {fuel k : Nat} {c d : Configuration σ V} {sim : Simulation V} {token : Symbol V}
      {stream : TokenStream V} {stack : ParseStack V} {r : Repair σ V} :
      c.simulate p fuel = .ok (sim, d) → sim.succeeded = .ok false →
      d.stream.remove 0 = .ok (token, stream) → token.isEof = false →
      d.stack.modifyTopSymbol ({ · with stop := token.stop }) = .ok stack →
      Discards p state unwound fuel { d with stream, stack } k r →
      Discards p state unwound (fuel + 1) c (k + 1) r

/-- Widening a phrase returns after some rounds. -/
theorem widenPhrase_eq_ok : widenPhrase p state unwound fuel c = .ok r ↔
    ∃ k, Discards p state unwound fuel c k r := by
  constructor
  · intro h
    -- By induction on the fuel. A round ends the search, or it discards one more token.
    induction fuel generalizing c with
    | zero => cases h
    | succ fuel ih =>
      obtain ⟨⟨sim, d⟩, hsim, h⟩ := bind_eq_ok.mp h
      dsimp only at h
      split at h
      · rename_i fault hfault
        cases h
        exact ⟨0, .faulty hsim hfault⟩
      · rename_i hok
        obtain ⟨top, htop, h⟩ := bind_eq_ok.mp h
        rw [liftM_eq_ok, traceSuccess, trace_stack] at htop
        cases h
        exact ⟨0, .confirmed hsim hok htop⟩
      · rename_i hok
        obtain ⟨⟨token, stream⟩, hremove, h⟩ := bind_eq_ok.mp h
        dsimp only at h
        split at h
        · rename_i heof
          cases h
          exact ⟨1, .exhausted hsim hok (liftM_eq_ok.mp hremove) heof⟩
        · rename_i heof
          obtain ⟨stack, hmodify, h⟩ := bind_eq_ok.mp h
          obtain ⟨k, hrest⟩ := ih h
          exact ⟨k + 1, .next hsim hok (liftM_eq_ok.mp hremove) (Bool.not_eq_true _ ▸ heof)
            (liftM_eq_ok.mp hmodify) hrest⟩
  · rintro ⟨k, h⟩
    induction h with
    | faulty hsim hfault =>
      unfold widenPhrase
      simp only [hsim, ok_bind, hfault]
      rfl
    | confirmed hsim hok htop =>
      unfold widenPhrase
      simp only [hsim, ok_bind, hok, traceSuccess, trace_stack, htop, liftM_ok]
      rfl
    | exhausted hsim hok hremove heof =>
      unfold widenPhrase
      simp only [hsim, ok_bind, hok, hremove, liftM_ok, heof, if_true]
      rfl
    | next hsim hok hremove heof hmodify _ ih =>
      unfold widenPhrase
      simp only [hsim, ok_bind, hok, hremove, liftM_ok, heof, hmodify]
      exact ih

/-- A phrase that is confirmed as it is takes no token. -/
theorem discards_of_success {x : Symbol V} (hsim : c.simulate p fuel = .ok (sim, d))
    (hok : sim.succeeded = .ok true) (htop : c.stack.topSymbol = .ok x) :
    ∃ d', Discards p state unwound (fuel + 1) c 0 (.repaired d') := by
  rw [← simulate_stack hsim] at htop
  exact ⟨_, .confirmed hsim hok htop⟩

/-- With a narrower window a phrase takes no more tokens, and it is confirmed if it was. -/
theorem Discards.narrower {x : Symbol V} (h : Discards p' state unwound fuel c' k' r')
    (hnarrow : c.Narrower c') (htables : p.tables = p'.tables)
    (htop : c.stack.topSymbol = .ok x) :
    ∃ k r, Discards p state unwound fuel c k r ∧ k ≤ k' ∧
      ((∃ d', r' = .repaired d') → ∃ d, r = .repaired d) := by
  -- Round by round: a simulation comes to the same, or the phrase is confirmed before.
  induction h generalizing c x with
  | faulty hsim' hfault' =>
    obtain ⟨sim, d, hsim, hmilder⟩ := hnarrow.simulate htables hsim'
    rcases hmilder.succeeded with hok | hsame
    · obtain ⟨d', hdone⟩ := discards_of_success hsim hok htop
      exact ⟨0, _, hdone, Nat.le_refl 0, fun _ => ⟨d', rfl⟩⟩
    · refine ⟨0, _, .faulty hsim (hsame.trans hfault'), Nat.le_refl 0, ?_⟩
      rintro ⟨_, hrepaired⟩
      cases hrepaired
  | confirmed hsim' hok' _ =>
    obtain ⟨sim, d, hsim, hmilder⟩ := hnarrow.simulate htables hsim'
    have hok : sim.succeeded = .ok true := hmilder.succeeded.elim id fun h => h.trans hok'
    obtain ⟨d', hdone⟩ := discards_of_success hsim hok htop
    exact ⟨0, _, hdone, Nat.le_refl 0, fun _ => ⟨d', rfl⟩⟩
  | exhausted hsim' hok' hremove' heof =>
    obtain ⟨sim, d, hsim, hmilder⟩ := hnarrow.simulate htables hsim'
    rcases hmilder.succeeded with hok | hsame
    · obtain ⟨d', hdone⟩ := discards_of_success hsim hok htop
      exact ⟨0, _, hdone, Nat.zero_le 1, fun _ => ⟨d', rfl⟩⟩
    · have hok := hsame.trans hok'
      obtain ⟨-, -, -, -, hne⟩ := simulate_stream hsim hok
      obtain ⟨s, hremove, -⟩ := (hnarrow.simulated hsim hok hsim' hok').removed hne hremove'
      refine ⟨1, _, .exhausted hsim hok hremove heof, Nat.le_refl 1, ?_⟩
      rintro ⟨_, hrepaired⟩
      cases hrepaired
  | @next _ k' _ _ _ _ _ stack _ hsim' hok' hremove' heof hmodify' _ ih =>
    obtain ⟨sim, d, hsim, hmilder⟩ := hnarrow.simulate htables hsim'
    rcases hmilder.succeeded with hok | hsame
    · obtain ⟨d', hdone⟩ := discards_of_success hsim hok htop
      exact ⟨0, _, hdone, Nat.zero_le _, fun _ => ⟨d', rfl⟩⟩
    · have hok := hsame.trans hok'
      obtain ⟨-, -, -, -, hne⟩ := simulate_stream hsim hok
      have hafter := hnarrow.simulated hsim hok hsim' hok'
      obtain ⟨s, hremove, hrest⟩ := hafter.removed hne hremove'
      obtain ⟨_, htop'⟩ := ParseStack.exists_topSymbol_of_modify hmodify'
      obtain ⟨k, r, hdone, hle, hrepaired⟩ := ih (hrest stack) htop'
      rw [← hafter.stack_eq] at hmodify'
      exact ⟨k + 1, r, .next hsim hok hremove heof hmodify' hdone, Nat.succ_le_succ hle, hrepaired⟩

/-- The error symbol in the place of the entries above a depth, with which widening begins. -/
def beginPhrase (error : SymbolId) (depth : Nat) (target : StateId) (below : Symbol V)
    (c : Configuration σ V) : Configuration σ V :=
  let head := ((c.stream.peek? 0).map Symbol.start).getD below.stop
  ({ c with stack := c.stack.truncate depth } : Configuration σ V).push target
    (phraseSymbol error c.stack depth head)

/-- The replacement of a phrase, with the number of tokens that it has taken. -/
inductive PhraseDiscards (p : Parser σ V) (fuel : Nat) (state : StateId) (c : Configuration σ V) :
    Nat → Repair σ V → Prop
  | noErrorSymbol {below : Symbol V} : c.stack.topSymbol = .ok below →
      p.tables.errorSymbol = none →
      PhraseDiscards p fuel state c 0
        (.aborted (.unrecoverable .noErrorState
            (((c.stream.peek? 0).map Symbol.start).getD below.stop))
          (traceFailure p .phrase state 0 c))
  | noErrorState {below : Symbol V} {error : SymbolId} : c.stack.topSymbol = .ok below →
      p.tables.errorSymbol = some error →
      errorShift? p.tables error c.stack c.stack.depth = .ok none →
      PhraseDiscards p fuel state c 0
        (.aborted (.unrecoverable .noErrorState
            (((c.stream.peek? 0).map Symbol.start).getD below.stop))
          (traceFailure p .phrase state (c.stack.depth - 1) c))
  | widened {below : Symbol V} {error : SymbolId} {depth k : Nat} {target : StateId}
      {r : Repair σ V} : c.stack.topSymbol = .ok below → p.tables.errorSymbol = some error →
      errorShift? p.tables error c.stack c.stack.depth = .ok (some (depth, target)) →
      Discards p state (c.stack.depth - depth) fuel (beginPhrase error depth target below c) k r →
      PhraseDiscards p fuel state c k r

/-- Replacing a phrase returns when some tokens have been discarded, or none. -/
theorem replacePhrase_eq_ok : replacePhrase p fuel state c = .ok r ↔
    ∃ k, PhraseDiscards p fuel state c k r := by
  constructor
  · intro h
    obtain ⟨below, hbelow, h⟩ := bind_eq_ok.mp h
    rw [liftM_eq_ok] at hbelow
    dsimp only at h
    split at h
    · rename_i herror
      cases h
      exact ⟨0, .noErrorSymbol hbelow herror⟩
    · rename_i error herror
      obtain ⟨found, hfound, h⟩ := bind_eq_ok.mp h
      rw [liftM_eq_ok] at hfound
      cases found with
      | none =>
        cases h
        exact ⟨0, .noErrorState hbelow herror hfound⟩
      | some found =>
        obtain ⟨k, hdone⟩ := widenPhrase_eq_ok.mp h
        exact ⟨k, .widened hbelow herror hfound hdone⟩
  · rintro ⟨k, h⟩
    unfold replacePhrase
    cases h with
    | noErrorSymbol hbelow herror =>
      simp only [hbelow, liftM_ok, ok_bind, herror]
      rfl
    | noErrorState hbelow herror hfound =>
      simp only [hbelow, liftM_ok, ok_bind, herror, hfound]
      rfl
    | widened hbelow herror hfound hdone =>
      simp only [hbelow, liftM_ok, ok_bind, herror, hfound]
      exact widenPhrase_eq_ok.mpr ⟨k, hdone⟩

/-- With a narrower window the replacement of a phrase takes no more tokens, and it is confirmed if
it was. -/
theorem PhraseDiscards.narrower (h : PhraseDiscards p' fuel state c' k' r')
    (hnarrow : c.Narrower c') (htables : p.tables = p'.tables)
    (hhead : c.stream.peek? 0 = c'.stream.peek? 0) :
    ∃ k r, PhraseDiscards p fuel state c k r ∧ k ≤ k' ∧
      ((∃ d', r' = .repaired d') → ∃ d, r = .repaired d) := by
  have hstack := hnarrow.stack_eq
  cases h with
  | noErrorSymbol hbelow herror =>
    rw [← htables] at herror
    rw [← hstack] at hbelow
    refine ⟨0, _, .noErrorSymbol hbelow herror, Nat.le_refl 0, ?_⟩
    rintro ⟨_, hrepaired⟩
    cases hrepaired
  | noErrorState hbelow herror hfound =>
    rw [← htables] at herror hfound
    rw [← hstack] at hbelow hfound
    refine ⟨0, _, .noErrorState hbelow herror hfound, Nat.le_refl 0, ?_⟩
    rintro ⟨_, hrepaired⟩
    cases hrepaired
  | @widened below error depth _ target _ hbelow herror hfound hdone =>
    rw [← htables] at herror hfound
    rw [← hstack] at hbelow hfound hdone
    -- Both begin with the same phrase, so what is left is to widen it.
    have hbegin : (beginPhrase error depth target below c).Narrower
        (beginPhrase error depth target below c') := by
      refine hnarrow.of_stream ?_ hnarrow.feed_eq rfl rfl rfl hnarrow.buffering
      rw [beginPhrase, beginPhrase, push_stack, push_stack, hstack, hhead]
    have htop : (beginPhrase error depth target below c).stack.topSymbol = .ok
        (phraseSymbol error c.stack depth
          (((c.stream.peek? 0).map Symbol.start).getD below.stop)) := by
      rw [beginPhrase, push_stack, ParseStack.topSymbol, ParseStack.top_push]
      rfl
    obtain ⟨k, r, hrest, hle, hrepaired⟩ := hdone.narrower hbegin htables htop
    exact ⟨k, r, .widened hbelow herror hfound hrest, hle, hrepaired⟩

/-! ## Narrower windows -/

/-- A wider window is never more permissive.

A simulation with a narrower window, over a stream that delivers what has been delivered to the one
with the wider window, succeeds or comes to the same; if that one succeeds, so does this one. It
keeps a least depth at least as large, and it reads no more. It has the same fuel, and it does not
matter what the simulators have been used for before.

So it is when from the same stack, and over streams with the same feed, a simulation is to confirm
edits of the head: insertions, replacements, deletions, or the deletions of a phrase with its symbol
on the stack.

If a phrase is replaced from the same stack and the same head, then with the narrower window this
returns, too. It succeeds if it does with the wider one, and it takes no more tokens. -/
theorem wider_window_is_stricter (htables : p.tables = p'.tables) :
    (∀ (base : Array StateId) (s s' : TokenStream V), s.buffering = true → s.read = 0 →
      s'.read = 0 → s.Spacious → s.window ≤ s'.window → ∀ fuel used used' run',
        runWith p'.tables fuel used' base s' = .ok run' →
        (∀ i < run'.deliveries, s.feed.get i = s'.feed.get i) →
        ∃ run, runWith p.tables fuel used base s = .ok run ∧ run.Milder run') ∧
    (∀ c c' : Configuration σ V, c.Narrower c' →
      ∀ (stack : ParseStack V) (edits : List (HeadEdit V)) answers s s',
        c.stream.performAll (edits.map HeadEdit.operation) = .ok (answers, s) →
        c'.stream.performAll (edits.map HeadEdit.operation) = .ok (answers, s') →
        ∀ fuel sim' d',
          ({ c' with stack, stream := s' } : Configuration σ V).simulate p' fuel = .ok (sim', d') →
          ∃ sim d,
            ({ c with stack, stream := s } : Configuration σ V).simulate p fuel = .ok (sim, d) ∧
              sim.Milder sim') ∧
    ∀ c c' : Configuration σ V, c.Narrower c' → c.stream.peek? 0 = c'.stream.peek? 0 →
      ∀ fuel state r', replacePhrase p' fuel state c' = .ok r' →
        ∃ r, replacePhrase p fuel state c = .ok r ∧
          ((∃ d', r' = .repaired d') → ∃ d, r = .repaired d) ∧
          (∃ k', PhraseDiscards p' fuel state c' k' r') ∧
          ∀ k', PhraseDiscards p' fuel state c' k' r' →
            ∃ k ≤ k', PhraseDiscards p fuel state c k r := by
  refine ⟨?_, ?_, ?_⟩
  · intro base s s' hmode hread hread' hs hwindow fuel used used' run' hrun hfeed
    rw [← htables] at hrun
    exact runWith_milder hrun hmode hread hread' hs hwindow hfeed
  · intro c c' hnarrow stack edits answers s s' hedits hedits' fuel sim' d' hsim'
    exact (hnarrow.edited stack hedits hedits').simulate htables hsim'
  · intro c c' hnarrow hhead fuel state r' hreplace
    obtain ⟨k', hdone'⟩ := replacePhrase_eq_ok.mp hreplace
    obtain ⟨k, r, hdone, -, hrepaired⟩ := hdone'.narrower hnarrow htables hhead
    have hreturns := replacePhrase_eq_ok.mpr ⟨k, hdone⟩
    refine ⟨r, hreturns, hrepaired, ⟨k', hdone'⟩, fun k' hdone' => ?_⟩
    obtain ⟨k, r₁, hdone₁, hle, -⟩ := hdone'.narrower hnarrow htables hhead
    have hsame := replacePhrase_eq_ok.mpr ⟨k, hdone₁⟩
    rw [hreturns] at hsame
    cases hsame
    exact ⟨k, hle, hdone₁⟩

/-- A configuration with a stack and a stream, in which nothing has been told or counted. -/
def facing (stack : ParseStack Unit) (stream : TokenStream Unit) : Configuration Unit Unit :=
  ⟨stack, stream, .zero, #[], ()⟩

/-- A stream with a window, over a letter that has been read ahead and comes again. -/
def letterAhead (window : Nat) : Checked (TokenStream Unit) := do
  let s ← ofScanner (.ofTokens [Parser.letter]) window 12
  let d ← (s.setBuffering true).nextBuffered
  d.stream.rewind

def letterStack : ParseStack Unit := (ParseStack.ofState startState).push 1 Parser.letter

/-- In front of a letter that is held back, with windows of one token and of two: both confirm it
behind the start state, also when another letter has been inserted and removed; and behind another
letter it is taken for an error phrase together with that. -/
theorem wider_window_is_stricter_letter :
    ∃ (s s' e : TokenStream Unit) (run run' sim sim' : Simulation Unit)
      (d : Configuration Unit Unit) (r : Repair Unit Unit) (k k' : Nat),
      s.window = 1 ∧ s'.window = 2 ∧ (facing letterStack s).Narrower (facing letterStack s') ∧
      runWith Parser.phraseTables 5 usedSimulator #[startState] s' = .ok run' ∧
      run'.succeeded.toOption = some true ∧
      runWith Parser.phraseTables 5 usedSimulator #[startState] s = .ok run ∧
      run.Milder run' ∧
      (facing (.ofState startState) e).simulate Parser.phraseParser 5 = .ok (sim, d) ∧
      sim'.succeeded.toOption = some true ∧ sim.Milder sim' ∧
      replacePhrase Parser.phraseParser 5 1 (facing letterStack s) = .ok r ∧
      (∃ d, r = .repaired d) ∧
      PhraseDiscards Parser.phraseParser 5 1 (facing letterStack s) k r ∧ k ≤ k' := by
  obtain ⟨hruns, hedited, hphrases⟩ :=
    @wider_window_is_stricter _ _ Parser.phraseParser Parser.phraseParser rfl
  obtain ⟨s, hs⟩ : ∃ s, letterAhead 1 = .ok s := ⟨_, rfl⟩
  obtain ⟨s', hs'⟩ : ∃ s', letterAhead 2 = .ok s' := ⟨_, rfl⟩
  obtain ⟨hone, htwo, hmode, hread, hread', hhead, hfeed⟩ : s.window = 1 ∧ s'.window = 2 ∧
      s.buffering = true ∧ s.read = 0 ∧ s'.read = 0 ∧ s.peek? 0 = s'.peek? 0 ∧
      s.feed = s'.feed := by
    cases hs
    cases hs'
    exact ⟨rfl, rfl, rfl, rfl, rfl, rfl, rfl⟩
  have hspacious : s.Spacious := by
    cases hs
    exact ⟨by decide, by decide⟩
  have hwindow : s.window ≤ s'.window := by omega
  have hnarrow : (facing letterStack s).Narrower (facing letterStack s') :=
    ⟨rfl, hfeed, hwindow, hmode, hspacious⟩
  -- What succeeds with the wider window succeeds with the narrower one.
  obtain ⟨run', hrun', hok⟩ := exists_ok_of_any
    (show (runWith Parser.phraseTables 5 usedSimulator #[startState] s').toOption.any
        (fun run => decide (run.succeeded.toOption = some true)) = true by
      cases hs'
      decide +kernel)
  obtain ⟨run, hrun, hmilder⟩ := hruns #[startState] s s' hmode hread hread' hspacious hwindow 5
    usedSimulator usedSimulator run' hrun' fun i _ => congrArg (·.get i) hfeed
  -- The heads of both streams are edited in the same way.
  obtain ⟨seen, e, e', he, he'⟩ : ∃ seen e e',
      s.performAll ([.insertion Parser.letter, .deletion].map HeadEdit.operation) =
        .ok (seen, e) ∧
      s'.performAll ([.insertion Parser.letter, .deletion].map HeadEdit.operation) =
        .ok (seen, e') := by
    cases hs
    cases hs'
    exact ⟨_, _, _, rfl, rfl⟩
  obtain ⟨⟨sim', d'⟩, hsim', hok'⟩ := exists_ok_of_any
    (show ((facing (.ofState startState) e').simulate Parser.phraseParser 5).toOption.any
        (fun r => decide (r.1.succeeded.toOption = some true)) = true by
      cases hs'
      cases he'
      decide +kernel)
  obtain ⟨sim, d, hsim, hmilder'⟩ :=
    hedited _ _ hnarrow (.ofState startState) _ seen e e' he he' 5 sim' d' hsim'
  -- The wider window has a phrase confirmed, and the narrower one has it no later.
  obtain ⟨r', hr', hrepaired'⟩ := exists_ok_of_any
    (show (replacePhrase Parser.phraseParser 5 1 (facing letterStack s')).toOption.any
        Repair.isRepaired = true by
      cases hs'
      decide +kernel)
  obtain ⟨r, hr, hrepaired, ⟨k', hk'⟩, hfewer⟩ := hphrases _ _ hnarrow hhead 5 1 r' hr'
  obtain ⟨k, hle, hk⟩ := hfewer k' hk'
  have hphrase : ∃ d, r = .repaired d := by
    apply hrepaired
    cases r' with
    | repaired d' => exact ⟨d', rfl⟩
    | aborted e d' => cases hrepaired'
  exact ⟨s, s', e, run, run', sim, sim', d, r, k, k', hone, htwo, hnarrow, hrun',
    of_decide_eq_true hok, hrun, hmilder, hsim, of_decide_eq_true hok', hmilder', hr, hphrase, hk,
    hle⟩

end Recovery

end ShiftReduce
