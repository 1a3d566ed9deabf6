import ShiftReduce.Proofs.Agreement
import ShiftReduce.Proofs.MoreFuel
import ShiftReduce.Proofs.Parser.Steps
import ShiftReduce.Proofs.Recovery.Containment
import ShiftReduce.Proofs.Stream.Ahead

/-!
# Simulations can be repeated

What a simulation comes to depends on its base, the pending tokens and the window. It does not
matter what the simulator has been used for before, nor how many of the tokens are held back
already; and when the stream has been rewound, the same simulation comes to the same again,
without the scanner.

* `Automaton.Decides`: what the automaton by itself comes to.
* `Simulation.run_alike`: a simulator that has been used before does what a new one does.
* `Simulation.Proceeds`: the course of a simulation, token by token.
* `Passes.readAhead`: the stream, while it is read.
* `runWith_decides` and `exists_runWith`: a simulation and the automaton decide alike.
* `Proceeds.again`: the second time.
* `simulation_depends_on_pending`: all of it together.
-/

namespace ShiftReduce

open Automaton

variable {V : Type} {t : PackedTables} {x : SymbolId} {rule : RuleId} {info : Rule}
  {fuel more w : Nat} {v : Verdict} {ok : Bool} {base final : List StateId} {found : Action}

/-! ## The automaton -/

namespace Automaton

/-- What the automaton comes to by itself, from states with the first one at the bottom: its
answer, the states that it leaves, and the least number of them that there have been. -/
inductive Decides (t : PackedTables) (w : Nat) (input : Stream' SymbolId) :
    List StateId → Bool → List StateId → Nat → Prop
  | run {base final : List StateId} {rs : List Response} {ok : Bool} :
      Run t w base.reverse input rs ok final →
      Decides t w input base ok final.reverse (lowest base.length rs)
  /-- Without a state there is nothing to go on from. -/
  | bare : Decides t w input [] false [] 0

theorem Run.ne_nil {rs : List Response} {input : Stream' SymbolId}
    (h : Run t (w + 1) base input rs ok final) : base ≠ [] := by
  rintro rfl
  obtain ⟨r, -, -, hr, -⟩ := h.first
  cases hr

/-- What the automaton comes to is determined by where it starts. -/
theorem Decides.unique {input : Stream' SymbolId} {ok' : Bool} {states states' : List StateId}
    {depth depth' : Nat} (hw : 1 ≤ w) (h : Decides t w input base ok states depth)
    (h' : Decides t w input base ok' states' depth') :
    ok = ok' ∧ states = states' ∧ depth = depth' := by
  obtain ⟨w, rfl⟩ : ∃ k, w = k + 1 := ⟨w - 1, by omega⟩
  cases h with
  | run hrun =>
    cases h' with
    | run hrun' =>
      obtain ⟨rfl, rfl, rfl⟩ := hrun.unique hrun'
      exact ⟨rfl, rfl, rfl⟩
    | bare => exact absurd rfl hrun.ne_nil
  | bare =>
    cases h' with
    | run hrun' => exact absurd rfl hrun'.ne_nil
    | bare => exact ⟨rfl, rfl, rfl⟩

end Automaton

namespace Simulator

variable {sim sim' : Simulator}

/-! ## Simulators that have been used before -/

/-- A simulator of which the states are replaced. It keeps the room that its stack has got. -/
def load (sim : Simulator) (base : Array StateId) : Simulator :=
  ⟨sim.states.copyFrom base, base.size⟩

theorem column_load (sim : Simulator) (base : Array StateId) :
    (sim.load base).column = base.toList.reverse :=
  Stack.topDown_copyFrom _ _

/-- Simulators with the same states, of which nothing but the room may be different. -/
structure Alike (sim sim' : Simulator) : Prop where
  items_eq : sim'.states.items = sim.states.items
  lowest_eq : sim'.lowestDepth = sim.lowestDepth

theorem alike_load (sim sim' : Simulator) (base : Array StateId) :
    (sim.load base).Alike (sim'.load base) :=
  ⟨(Stack.items_copyFrom _ _).trans (Stack.items_copyFrom _ _).symm, rfl⟩

namespace Alike

theorem size_eq (h : sim.Alike sim') : sim'.states.size = sim.states.size := by
  rw [Stack.size, h.items_eq, Stack.size]

theorem top?_eq (h : sim.Alike sim') : sim'.states.top? = sim.states.top? := by
  rw [Stack.top?, h.items_eq, Stack.top?]

theorem enter (h : sim.Alike sim') (s : StateId) : (sim.enter s).Alike (sim'.enter s) := by
  refine ⟨?_, h.lowest_eq⟩
  rw [Simulator.enter, Simulator.enter, Stack.items_push, Stack.items_push, h.items_eq]

theorem dropTo (h : sim.Alike sim') (depth : Nat) :
    (sim.dropTo depth).Alike (sim'.dropTo depth) := by
  constructor
  · rw [Simulator.dropTo, Simulator.dropTo, Stack.items_truncate, Stack.items_truncate, h.items_eq]
  · rw [Simulator.dropTo, Simulator.dropTo, h.lowest_eq]

theorem reduce (h : sim.Alike sim') (t : PackedTables) (rule : RuleId) :
    Agree (fun r r' => r'.1 = r.1 ∧ r.2.Alike r'.2) (Simulator.reduce t rule sim)
      (Simulator.reduce t rule sim') := by
  refine Agree.bind_right (fun info => ?_) _
  rw [h.size_eq]
  split
  · exact .ok ⟨rfl, h⟩
  · have hdrop := h.dropTo (sim.states.size - info.length)
    dsimp only
    rw [hdrop.top?_eq]
    split
    · exact Agree.bind_right (fun found => .ok ⟨rfl, hdrop⟩) _
    · exact .ok ⟨rfl, hdrop⟩

/-- What becomes of a terminal does not depend on the room. -/
theorem advance (h : sim.Alike sim') (t : PackedTables) (x : SymbolId) (fuel : Nat) :
    Agree (fun r r' => r'.1 = r.1 ∧ r.2.Alike r'.2) (Simulator.advance t x fuel sim)
      (Simulator.advance t x fuel sim') := by
  induction fuel generalizing sim sim' with
  | zero => exact .error _
  | succ fuel ih =>
    rw [Simulator.advance, Simulator.advance, h.top?_eq]
    split
    · exact .ok ⟨rfl, h⟩
    · refine Agree.bind_right (fun action => ?_) _
      cases action with
      | shift next => exact .ok ⟨rfl, h.enter next⟩
      | accept => exact .ok ⟨rfl, h⟩
      | error => exact .ok ⟨rfl, h⟩
      | reduce rule =>
        refine (h.reduce t rule).toFueled.bind ?_
        rintro ⟨_, mid⟩ ⟨found, mid'⟩ ⟨rfl, hmid⟩
        cases found with
        | shift next => exact ih (hmid.enter next)
        | accept => exact .ok ⟨rfl, hmid⟩
        | reduce other => exact .ok ⟨rfl, hmid⟩
        | error => exact .ok ⟨rfl, hmid⟩

end Alike

/-! ## Any tables -/

/-- Whatever tables there are, a terminal is dealt with, or a lookup is past the end of an
array. -/
theorem advance_returns_anywhere (t : PackedTables) (x : SymbolId) (fuel : Nat) (sim : Simulator) :
    Returns (Interrupt.Expected (· = .indexOutOfBounds)) (fun _ => True)
      (advance t x fuel sim) := by
  by_cases hne : sim.column = []
  · cases fuel with
    | zero => exact returns_error trivial
    | succ fuel =>
      rw [advance, top?_states, hne]
      exact trivial
  · have hwithin : sim.Within (fun _ => True) := ⟨fun _ _ => trivial, hne⟩
    exact (advance_returns t.leads_anywhere hwithin trivial).mono (fun _ he => he)
      fun _ _ _ => trivial

end Simulator

namespace Simulation

variable {sim sim' : Simulator} {s s' : TokenStream V} {lexical lexical' : List LexicalError}
  {run : Simulation V}

/-- A simulation with a simulator that may have been used before. -/
def runWith (t : PackedTables) (fuel : Nat) (sim : Simulator) (base : Array StateId)
    (s : TokenStream V) : Fueled (Simulation V) :=
  runTokens t fuel (s.window - s.read - 1) (sim.load base) s []

/-- Simulations that come to the same, of which nothing but the room may be different. -/
structure Alike (run run' : Simulation V) : Prop where
  succeeded_eq : run'.succeeded = run.succeeded
  simulator : run.simulator.Alike run'.simulator
  stream_eq : run'.stream = run.stream
  lexical_eq : run'.lexical = run.lexical

theorem runTokens_alike (h : sim.Alike sim') (t : PackedTables) (fuel more : Nat)
    (s : TokenStream V) (lexical : List LexicalError) :
    Agree Alike (runTokens t fuel more sim s lexical) (runTokens t fuel more sim' s lexical) := by
  induction more using Nat.strongRecOn generalizing sim sim' s lexical with
  | ind more ih =>
    unfold runTokens
    refine Agree.bind_right (fun d => ?_) _
    dsimp only
    cases d.result with
    | error fault => exact .ok ⟨rfl, h, rfl, rfl⟩
    | ok token =>
      refine (h.advance t token.id fuel).bind ?_
      rintro ⟨_, mid⟩ ⟨v, mid'⟩ ⟨rfl, hmid⟩
      cases v with
      | accepted | refused => exact .ok ⟨rfl, hmid, rfl, rfl⟩
      | shifted =>
        cases more with
        | zero => exact .ok ⟨rfl, hmid, rfl, rfl⟩
        | succ more => exact ih more (Nat.lt_succ_self more) hmid _ _

/-- A simulator that has been used before does what a new one does. -/
theorem run_alike (t : PackedTables) (fuel : Nat) (sim : Simulator) (base : Array StateId)
    (s : TokenStream V) : Agree Alike (Simulation.run t fuel base s) (runWith t fuel sim base s) :=
  runTokens_alike (Simulator.alike_load ⟨.empty, 0⟩ sim base) t fuel _ s []

/-! ## The course of a simulation -/

/-- How a simulation that returns goes on: up to a fault, up to its last token, or beyond a token
that has been shifted. -/
inductive Proceeds (t : PackedTables) (fuel : Nat) :
    Nat → Simulator → TokenStream V → List LexicalError → Simulation V → Prop
  | faulty {more : Nat} {sim : Simulator} {s : TokenStream V} {lexical : List LexicalError}
      {d : Delivery V} {fault : ScanError} : s.nextBuffered = .ok d → d.result = .error fault →
      Proceeds t fuel more sim s lexical ⟨.error fault, sim, d.stream, lexical ++ d.lexical⟩
  | last {more : Nat} {sim sim' : Simulator} {s : TokenStream V} {lexical : List LexicalError}
      {d : Delivery V} {token : Symbol V} {v : Verdict} : s.nextBuffered = .ok d →
      d.result = .ok token → sim.advance t token.id fuel = .ok (v, sim') →
      (v = .shifted → more = 0) →
      Proceeds t fuel more sim s lexical
        ⟨.ok (decide (v ≠ .refused)), sim', d.stream, lexical ++ d.lexical⟩
  | further {more : Nat} {sim sim' : Simulator} {s : TokenStream V} {lexical : List LexicalError}
      {d : Delivery V} {token : Symbol V} {run : Simulation V} : s.nextBuffered = .ok d →
      d.result = .ok token → sim.advance t token.id fuel = .ok (.shifted, sim') →
      Proceeds t fuel more sim' d.stream (lexical ++ d.lexical) run →
      Proceeds t fuel (more + 1) sim s lexical run

theorem proceeds_of_runTokens (h : runTokens t fuel more sim s lexical = .ok run) :
    Proceeds t fuel more sim s lexical run := by
  induction more using Nat.strongRecOn generalizing sim s lexical with
  | ind more ih =>
    unfold runTokens at h
    obtain ⟨d, hnext, h⟩ := bind_eq_ok.mp h
    rw [liftM_eq_ok] at hnext
    split at h
    · rename_i fault hfault
      cases h
      exact .faulty hnext hfault
    · rename_i token htoken
      obtain ⟨⟨v, sim'⟩, hadvance, h⟩ := bind_eq_ok.mp h
      cases v with
      | accepted | refused =>
        cases h
        exact .last hnext htoken hadvance Verdict.noConfusion
      | shifted =>
        cases more with
        | zero =>
          cases h
          exact .last hnext htoken hadvance fun _ => rfl
        | succ more => exact .further hnext htoken hadvance (ih more (Nat.lt_succ_self more) h)

theorem Proceeds.runTokens_eq (h : Proceeds t fuel more sim s lexical run) :
    runTokens t fuel more sim s lexical = .ok run := by
  induction h with
  | faulty hnext hfault =>
    unfold runTokens
    simp only [hnext, liftM_ok, ok_bind, hfault]
    rfl
  | @last more _ _ _ _ _ _ v hnext htoken hadvance hlast =>
    unfold runTokens
    simp only [hnext, liftM_ok, ok_bind, htoken, hadvance]
    cases v with
    | accepted | refused => rfl
    | shifted =>
      cases hlast rfl
      rfl
  | further hnext htoken hadvance _ ih =>
    unfold runTokens
    simp only [hnext, liftM_ok, ok_bind, htoken, hadvance]
    exact ih

/-- A simulation that returns has come by its last moment. -/
theorem Proceeds.passes (h : Proceeds t fuel more sim s lexical run) :
    Passes t fuel more sim s lexical run.stream run.lexical := by
  induction h with
  | faulty hnext _ => exact .read hnext
  | last hnext _ _ _ => exact .read hnext
  | further hnext htoken hadvance _ ih => exact .next hnext htoken hadvance ih

/-- While a simulation reads, the stream is read ahead, no further than the window. -/
theorem Passes.readAhead (h : Passes t fuel more sim s lexical s' lexical')
    (hmode : s.buffering = true) (hread : s.read ≤ s.buffered.length) :
    s.ReadAhead s' ∧ s'.read ≤ s.read + more + 1 := by
  induction h with
  | start => exact ⟨.refl hmode hread, by omega⟩
  | read hnext =>
    obtain ⟨hahead, hcursor⟩ := TokenStream.readAhead_nextBuffered hnext hread
    exact ⟨hahead, by omega⟩
  | next hnext _ _ _ ih =>
    obtain ⟨hahead, hcursor⟩ := TokenStream.readAhead_nextBuffered hnext hread
    obtain ⟨hrest, hcursor'⟩ := ih hahead.buffering hahead.cursor_le
    exact ⟨hahead.trans hrest, by omega⟩

/-! ## What a simulation comes to -/

/-- The token that is delivered is the one at the cursor. -/
theorem head_of_nextBuffered {d : Delivery V} {token : Symbol V} (hnext : s.nextBuffered = .ok d)
    (hread : s.read ≤ s.buffered.length) (htoken : d.result = .ok token) :
    (s.terminals.drop s.read).head = token.id := by
  obtain ⟨-, -, -, -, hresult⟩ := TokenStream.nextBuffered_spec hnext hread
  obtain ⟨htok, -⟩ := hresult token htoken
  rw [htok, TokenStream.terminals, Stream'.drop_map, Stream'.head_map, Stream'.head_drop]

/-- If the scanner serves the tokens of the window, a simulation decides, or a lookup is past the
end of an array. -/
theorem runTokens_returns_anywhere (hmode : s.buffering = true)
    (hread : s.read ≤ s.buffered.length) (hroom : s.read + more + 1 < s.buffer.capacity)
    (hserves : s.scanner.Serves (more + 1)) :
    Returns (Interrupt.Expected (· = .indexOutOfBounds)) (fun run => ∃ ok, run.succeeded = .ok ok)
      (runTokens t fuel more sim s lexical) := by
  induction more using Nat.strongRecOn generalizing sim s lexical with
  | ind more ih =>
    obtain ⟨d, hnext⟩ := TokenStream.exists_nextBuffered_of_lt hmode hread (by omega)
    obtain ⟨⟨token, htoken⟩, hserves'⟩ := TokenStream.serves_nextBuffered hnext hserves
    obtain ⟨hahead, hcursor⟩ := TokenStream.readAhead_nextBuffered hnext hread
    unfold runTokens
    simp only [hnext, liftM_ok, ok_bind, htoken]
    apply (Simulator.advance_returns_anywhere t token.id fuel sim).bind
    rintro ⟨v, sim'⟩ - -
    cases v with
    | accepted => exact ⟨_, rfl⟩
    | refused => exact ⟨_, rfl⟩
    | shifted =>
      cases more with
      | zero => exact ⟨_, rfl⟩
      | succ more =>
        have hcapacity := hahead.capacity_eq
        exact ih more (Nat.lt_succ_self more) hahead.buffering hahead.cursor_le (by omega) hserves'

/-- If the automaton decides, a simulation does with enough fuel. -/
theorem exists_proceeds {rs : List Response}
    (hrun : Run t (more + 1) sim.column (s.terminals.drop s.read) rs ok final)
    (hmode : s.buffering = true) (hread : s.read ≤ s.buffered.length)
    (hroom : s.read + more + 1 < s.buffer.capacity) (hserves : s.scanner.Serves (more + 1))
    (lexical : List LexicalError) :
    ∃ fuel run, Proceeds t fuel more sim s lexical run := by
  induction more generalizing sim s rs lexical with
  | zero =>
    obtain ⟨d, hnext⟩ := TokenStream.exists_nextBuffered_of_lt hmode hread hroom
    obtain ⟨⟨token, htoken⟩, -⟩ := TokenStream.serves_nextBuffered hnext hserves
    obtain ⟨fuel, v, sim', hadvance, -⟩ := Simulator.advance_of_run hrun
    rw [head_of_nextBuffered hnext hread htoken] at hadvance
    exact ⟨fuel, _, .last hnext htoken hadvance fun _ => rfl⟩
  | succ more ih =>
    obtain ⟨d, hnext⟩ := TokenStream.exists_nextBuffered_of_lt hmode hread (by omega)
    obtain ⟨⟨token, htoken⟩, hserves'⟩ := TokenStream.serves_nextBuffered hnext hserves
    obtain ⟨hahead, -⟩ := TokenStream.readAhead_nextBuffered hnext hread
    obtain ⟨-, hcursor⟩ := TokenStream.held_of_nextBuffered hnext hread htoken
    obtain ⟨fuel, v, sim', hadvance, hgoes⟩ := Simulator.advance_of_run hrun
    rw [head_of_nextBuffered hnext hread htoken] at hadvance
    by_cases hshifted : v = .shifted
    · subst hshifted
      obtain ⟨rs', hrest⟩ := hgoes rfl
      rw [Stream'.tail_drop', ← hcursor, TokenStream.terminals, ← hahead.pending_eq] at hrest
      have hcapacity := hahead.capacity_eq
      obtain ⟨fuel', run, hrun'⟩ := ih hrest hahead.buffering hahead.cursor_le (by omega) hserves'
        (lexical ++ d.lexical)
      -- The larger of the two amounts of fuel does for both.
      have hadvance' := (Simulator.advance_prolongs (Nat.le_max_left fuel fuel') t token.id
        sim).eq_ok hadvance
      have hrun'' := (runTokens_prolongs (Nat.le_max_right fuel fuel') t more sim' d.stream
        (lexical ++ d.lexical)).eq_ok hrun'.runTokens_eq
      exact ⟨max fuel fuel', run, .further hnext htoken hadvance' (proceeds_of_runTokens hrun'')⟩
    · exact ⟨fuel, _, .last hnext htoken hadvance fun h => absurd h hshifted⟩

/-- Without a state a simulation is refused at the first terminal. -/
theorem Proceeds.of_bare (h : Proceeds t fuel more sim s lexical run) (hbare : sim.column = [])
    (hok : run.succeeded = .ok ok) : ok = false ∧ run.simulator = sim := by
  have hrefused {x : SymbolId} {v : Verdict} {sim' : Simulator}
      (hadvance : sim.advance t x fuel = .ok (v, sim')) : v = .refused ∧ sim' = sim := by
    cases fuel with
    | zero => cases hadvance
    | succ fuel =>
      rw [Simulator.advance, Simulator.top?_states, hbare] at hadvance
      cases hadvance
      exact ⟨rfl, rfl⟩
  cases h with
  | faulty => cases hok
  | last _ _ hadvance _ =>
    obtain ⟨rfl, rfl⟩ := hrefused hadvance
    cases hok
    exact ⟨rfl, rfl⟩
  | further _ _ hadvance _ => cases (hrefused hadvance).1

theorem exists_proceeds_bare (hbare : sim.column = []) (hmode : s.buffering = true)
    (hread : s.read ≤ s.buffered.length) (hroom : s.read + 1 < s.buffer.capacity)
    (lexical : List LexicalError) :
    ∃ run, Proceeds t 1 more sim s lexical run := by
  obtain ⟨d, hnext⟩ := TokenStream.exists_nextBuffered_of_lt hmode hread hroom
  cases hresult : d.result with
  | error fault => exact ⟨_, .faulty hnext hresult⟩
  | ok token =>
    have hadvance : sim.advance t token.id 1 = .ok (.refused, sim) := by
      rw [Simulator.advance, Simulator.top?_states, hbare]
      rfl
    exact ⟨_, .last hnext hresult hadvance Verdict.noConfusion⟩

theorem quota_eq (hw : 1 ≤ s.window) (hread : s.read = 0) :
    s.window - s.read - 1 + 1 = s.window := by
  omega

/-- A simulation comes to what the automaton comes to by itself. -/
theorem runWith_decides {base : Array StateId} (h : runWith t fuel sim base s = .ok run)
    (hok : run.succeeded = .ok ok) (hw : 1 ≤ s.window) (hread : s.read = 0) :
    Decides t s.window s.terminals base.toList ok run.simulator.states.items.toList
      run.simulator.lowestDepth := by
  by_cases hbare : base.toList = []
  · have hcolumn : (sim.load base).column = [] := by rw [Simulator.column_load, hbare]; rfl
    obtain ⟨rfl, hsame⟩ := (proceeds_of_runTokens h).of_bare hcolumn hok
    have hempty : base = #[] := Array.toList_eq_nil_iff.mp hbare
    subst hempty
    rw [hsame, Simulator.load, Stack.items_copyFrom]
    exact .bare
  · have hlow : (sim.load base).lowestDepth ≤ (sim.load base).column.length := by
      rw [Simulator.column_load, List.length_reverse, Array.length_toList]
      exact Nat.le_refl _
    have hne : (sim.load base).column ≠ [] := by
      rw [Simulator.column_load]
      simpa using hbare
    obtain ⟨rs, hrun, -, hlowest⟩ :=
      (runTokens_follows h (hread ▸ Nat.zero_le _) hne hlow).decides ok hok
    rw [quota_eq hw hread, hread, Simulator.column_load] at hrun
    have hstates : run.simulator.states.items.toList = run.simulator.column.reverse :=
      (List.reverse_reverse _).symm
    rw [hstates, hlowest]
    exact .run hrun

theorem exists_runWith {base : Array StateId} {states : List StateId} {depth : Nat}
    (h : Decides t s.window s.terminals base.toList ok states depth) (hs : s.Spacious)
    (hmode : s.buffering = true) (hread : s.read = 0) (hserves : s.scanner.Serves s.window)
    (sim : Simulator) : ∃ fuel run, runWith t fuel sim base s = .ok run := by
  have hroom := hs.room
  have hquota := quota_eq hs.window_pos hread
  have hle : s.read ≤ s.buffered.length := hread ▸ Nat.zero_le _
  generalize hbase : base.toList = bottom at h
  cases h with
  | run hrun =>
    rw [← hquota, ← hbase, ← Simulator.column_load sim base] at hrun
    have hdrop : s.terminals.drop s.read = s.terminals := by rw [hread]; rfl
    rw [← hdrop] at hrun
    obtain ⟨fuel, run, h⟩ :=
      exists_proceeds hrun hmode hle (by omega) (hquota.symm ▸ hserves) []
    exact ⟨fuel, run, h.runTokens_eq⟩
  | bare =>
    have hcolumn : (sim.load base).column = [] := by rw [Simulator.column_load, hbase]; rfl
    have hw := hs.window_pos
    obtain ⟨run, h⟩ := exists_proceeds_bare hcolumn hmode hle (by omega) []
    exact ⟨1, run, h.runTokens_eq⟩

theorem runWith_returns_anywhere (hs : s.Spacious) (hmode : s.buffering = true)
    (hread : s.read = 0) (hserves : s.scanner.Serves s.window) (t : PackedTables) (fuel : Nat)
    (sim : Simulator) (base : Array StateId) :
    Returns (Interrupt.Expected (· = .indexOutOfBounds)) (fun run => ∃ ok, run.succeeded = .ok ok)
      (runWith t fuel sim base s) := by
  have hroom := hs.room
  have hquota := quota_eq hs.window_pos hread
  exact runTokens_returns_anywhere hmode (hread ▸ Nat.zero_le _) (by omega)
    (hquota.symm ▸ hserves)

/-! ## The second time -/

/-- If a token that has been read is still held back, it comes again. -/
theorem nextBuffered_again {d : Delivery V} {token : Symbol V} (hnext : s.nextBuffered = .ok d)
    (htoken : d.result = .ok token) (hread : s.read ≤ s.buffered.length)
    (hmode : s'.buffering = true) (hcursor : s'.read = s.read)
    (hheld : d.stream.buffered <+: s'.buffered) :
    s'.nextBuffered = .ok ⟨[], .ok token, { s' with read := d.stream.read }⟩ := by
  obtain ⟨hsome, hmoved⟩ := TokenStream.held_of_nextBuffered hnext hread htoken
  obtain ⟨hlt, -⟩ := List.getElem?_eq_some_iff.mp hsome
  obtain ⟨rest, hrest⟩ := hheld
  rw [hmoved, ← hcursor]
  refine TokenStream.nextBuffered_of_held hmode ?_
  rw [hcursor, ← hrest, List.getElem?_append_left hlt]
  exact hsome

/-- When what a simulation has read is held back, the same simulation over the same tokens comes
to the same, whatever the scanner and the room of the simulator are. -/
theorem Proceeds.again (h : Proceeds t fuel more sim s lexical run)
    (hok : run.succeeded = .ok ok) (hread : s.read ≤ s.buffered.length)
    (hmode : s.buffering = true) (halike : sim.Alike sim') (hmode' : s'.buffering = true)
    (hcursor : s'.read = s.read) (hheld : s'.buffered = run.stream.buffered)
    (lexical' : List LexicalError) :
    ∃ again, Proceeds t fuel more sim' s' lexical' again ∧
      again.succeeded = run.succeeded ∧ run.simulator.Alike again.simulator ∧
      again.stream = { s' with read := run.stream.read } ∧ again.lexical = lexical' := by
  induction h generalizing sim' s' lexical' with
  | faulty => cases hok
  | last hnext htoken hadvance hlast =>
    obtain ⟨⟨v, mid'⟩, hadvance', rfl, hmid⟩ := (halike.advance t _ fuel).exists_ok hadvance
    have hnext' := nextBuffered_again hnext htoken hread hmode' hcursor
      (hheld ▸ List.prefix_rfl)
    exact ⟨_, .last hnext' rfl hadvance' hlast, rfl, hmid, rfl, List.append_nil _⟩
  | @further _ _ _ _ _ d _ _ hnext htoken hadvance hrest ih =>
    obtain ⟨⟨_, mid'⟩, hadvance', rfl, hmid⟩ := (halike.advance t _ fuel).exists_ok hadvance
    obtain ⟨hahead, -⟩ := TokenStream.readAhead_nextBuffered hnext hread
    obtain ⟨hreads, -⟩ := hrest.passes.readAhead hahead.buffering hahead.cursor_le
    have hnext' := nextBuffered_again hnext htoken hread hmode' hcursor
      (hheld ▸ hreads.grows)
    have hmode'' : ({ s' with read := d.stream.read } : TokenStream V).buffering = true := hmode'
    obtain ⟨again, hagain, hsame, hsim, hstream, hlexical⟩ :=
      ih hok hahead.cursor_le hahead.buffering hmid hmode'' rfl hheld (lexical' ++ [])
    exact ⟨again, .further hnext' rfl hadvance' hagain, hsame, hsim, hstream,
      hlexical.trans (List.append_nil _)⟩

/-! ## What a simulation depends on -/

/-- What a simulation has come to: its answer, its states and their least number. -/
structure ComesTo (run : Simulation V) (ok : Bool) (states : List StateId) (depth : Nat) :
    Prop where
  succeeded_eq : run.succeeded = .ok ok
  states_eq : run.simulator.states.items.toList = states
  lowest_eq : run.simulator.lowestDepth = depth

/-- The second run finds what the first one has held back, and comes to the same again. -/
theorem runWith_again {base : Array StateId} (h : runWith t fuel sim base s = .ok run)
    (hok : run.succeeded = .ok ok) (hmode : s.buffering = true) (hread : s.read = 0)
    (later : Simulator) (scanner : Scanner V) :
    ∃ again, runWith t fuel later base { run.stream with read := 0, scanner } = .ok again ∧
      again.ComesTo ok run.simulator.states.items.toList run.simulator.lowestDepth ∧
      again.stream = { run.stream with scanner } ∧ again.lexical = [] := by
  have hle : s.read ≤ s.buffered.length := hread ▸ Nat.zero_le _
  have hproceeds := proceeds_of_runTokens h
  obtain ⟨hahead, -⟩ := hproceeds.passes.readAhead hmode hle
  have hmode' : ({ run.stream with read := 0, scanner } : TokenStream V).buffering = true :=
    hahead.buffering
  obtain ⟨again, hagain, hsame, halike, hstream, hlexical⟩ :=
    hproceeds.again hok hle hmode (Simulator.alike_load sim later base) hmode' hread.symm rfl []
  refine ⟨again, ?_, ⟨hsame.trans hok, congrArg Array.toList halike.items_eq, halike.lowest_eq⟩,
    hstream, hlexical⟩
  rw [hread] at hagain
  rw [runWith, hahead.window_eq]
  exact hagain.runTokens_eq

/-- What a simulation comes to depends on its base, the pending tokens and the window.

This is about every stream that has been made from a scanner and worked on, is in buffering mode
with its cursor at the mark, and gets a token for each of the next requests to its scanner, as many
as the window; and about every simulator, whatever it has been used for.

With the same fuel it does what a new simulator does. It has an answer if and only if the automaton
by itself has one, and then it is the same, with the same states and the same least depth. It fails
only on a lookup past the end of an array. At every moment the pending tokens are what they were,
and no more than a window of them is held back, unless there were more already. After a rewind any
simulator comes to the same again, whatever scanner there is: it is left as it is, and nothing is
reported. -/
theorem simulation_depends_on_pending {scanner : Scanner V} {window slotBytes : Nat}
    {opened : TokenStream V} {ops : List (Operation V)} {answers : List (Answer V)}
    (hopen : TokenStream.ofScanner scanner window slotBytes = .ok opened)
    (hops : opened.performAll ops = .ok (answers, s)) (hmode : s.buffering = true)
    (hread : s.read = 0) (hserves : s.scanner.Serves s.window) (t : PackedTables)
    (base : Array StateId) (sim : Simulator) :
    (∀ fuel, Agree Alike (Simulation.run t fuel base s) (runWith t fuel sim base s)) ∧
    (∀ ok states depth,
      (∃ fuel run, runWith t fuel sim base s = .ok run ∧ run.ComesTo ok states depth) ↔
        Decides t s.window s.terminals base.toList ok states depth) ∧
    (∀ fuel b, runWith t fuel sim base s = .error (.breach b) → b = .indexOutOfBounds) ∧
    (∀ fuel s' lexical, Passes t fuel (s.window - s.read - 1) (sim.load base) s [] s' lexical →
      s'.pending = s.pending ∧ s'.buffered.length ≤ max s.buffered.length s.window) ∧
    ∀ fuel run, runWith t fuel sim base s = .ok run →
      ∃ ok rewound, run.succeeded = .ok ok ∧ run.stream.pending = s.pending ∧
        run.stream.rewind = .ok rewound ∧
        ∀ (later : Simulator) (scanner' : Scanner V), ∃ again,
          runWith t fuel later base { rewound with scanner := scanner' } = .ok again ∧
          again.ComesTo ok run.simulator.states.items.toList run.simulator.lowestDepth ∧
          again.stream = { run.stream with scanner := scanner' } ∧ again.lexical = [] := by
  have hsound : opened.tape.Sound := TokenStream.tape_ofScanner hopen ▸ Tape.sound_ofScanner scanner
  have hs : s.Spacious :=
    TokenStream.spacious_of_performAll (TokenStream.spacious_ofScanner hopen) hsound hops
  have hle : s.read ≤ s.buffered.length := hread ▸ Nat.zero_le _
  have hreturns (fuel : Nat) := runWith_returns_anywhere hs hmode hread hserves t fuel sim base
  have hwindow := hs.window_pos
  -- In order: a used simulator, the verdict, the only breach, what is read ahead, the second run.
  refine ⟨fun fuel => run_alike t fuel sim base s, fun ok states depth => ⟨?_, ?_⟩, ?_, ?_, ?_⟩
  · rintro ⟨fuel, run, hrun, hok, rfl, rfl⟩
    exact runWith_decides hrun hok hs.window_pos hread
  · intro hdecides
    obtain ⟨fuel, run, hrun⟩ := exists_runWith hdecides hs hmode hread hserves sim
    obtain ⟨ok', hok⟩ := (hreturns fuel).of_eq_ok hrun
    obtain ⟨rfl, rfl, rfl⟩ :=
      (runWith_decides hrun hok hs.window_pos hread).unique hs.window_pos hdecides
    exact ⟨fuel, run, hrun, hok, rfl, rfl⟩
  · intro fuel b hb
    exact (hreturns fuel).of_eq_error hb
  · intro fuel s' lexical hpasses
    obtain ⟨hahead, hcursor⟩ := hpasses.readAhead hmode hle
    have hlength := hahead.length_le
    exact ⟨hahead.pending_eq, by omega⟩
  · intro fuel run hrun
    obtain ⟨ok, hok⟩ := (hreturns fuel).of_eq_ok hrun
    obtain ⟨hahead, -⟩ := (proceeds_of_runTokens hrun).passes.readAhead hmode hle
    refine ⟨ok, _, hok, hahead.pending_eq,
      TokenStream.rewind_eq_ok.mpr ⟨hahead.buffering, rfl⟩, ?_⟩
    intro later scanner'
    exact runWith_again hrun hok hmode hread later scanner'

/-- A simulator that has been used for something else. -/
def usedSimulator : Simulator := ⟨Stack.empty.copyFrom #[4, 5, 6], 0⟩

/-- A letter that is held back and the end of the input behind it are accepted, and they are again
when nothing but a fault is left to be scanned. -/
theorem simulation_depends_on_pending_oneLetter :
    ∃ (opened s rewound : TokenStream Unit) (answers : List (Answer Unit))
      (run again : Simulation Unit),
      TokenStream.ofScanner (.ofTokens [Parser.letter]) 2 12 = .ok opened ∧
      opened.performAll [.setBuffering true, .nextBuffered, .rewind] = .ok (answers, s) ∧
      s.buffered.length = 1 ∧
      Decides Parser.oneLetterTables s.window s.terminals [0] true [0] 1 ∧
      runWith Parser.oneLetterTables 2 usedSimulator #[0] s = .ok run ∧
      run.stream.pending = s.pending ∧ run.stream.buffered.length = 2 ∧
      run.stream.rewind = .ok rewound ∧
      runWith Parser.oneLetterTables 2 run.simulator #[0]
        { rewound with scanner := .ofItems [.error (.io "lost")] } = .ok again ∧
      again.ComesTo true [0] 1 ∧ again.lexical = [] := by
  obtain ⟨opened, hopen⟩ : ∃ opened,
    TokenStream.ofScanner (.ofTokens [Parser.letter]) 2 12 = .ok opened := ⟨_, rfl⟩
  obtain ⟨⟨answers, s⟩, hops⟩ : ∃ r,
      opened.performAll [.setBuffering true, .nextBuffered, .rewind] = .ok r := by
    cases hopen
    exact ⟨_, rfl⟩
  obtain ⟨run, hrun, hcomes⟩ := exists_ok_of_any
    (show (runWith Parser.oneLetterTables 2 usedSimulator #[0] s).toOption.any (fun run =>
        decide (run.succeeded.toOption = some true ∧ run.simulator.states.items.toList = [0] ∧
          run.simulator.lowestDepth = 1 ∧ run.stream.buffered.length = 2)) = true by
      cases hopen
      cases hops
      decide +kernel)
  obtain ⟨hok, hstates, hlowest, htwo⟩ := of_decide_eq_true hcomes
  obtain ⟨hmode, hread, hone, hserves⟩ : s.buffering = true ∧ s.read = 0 ∧ s.buffered.length = 1 ∧
      s.scanner.Serves s.window := by
    cases hopen
    cases hops
    exact ⟨rfl, rfl, rfl, ⟨_, rfl⟩, ⟨_, rfl⟩, trivial⟩
  obtain ⟨-, hsame, -, -, hagain⟩ := simulation_depends_on_pending hopen hops hmode hread hserves
    Parser.oneLetterTables #[0] usedSimulator
  -- The tokens that were read are held back, so the second run does not need the scanner.
  obtain ⟨ok, rewound, hanswer, hpending, hrewind, hlater⟩ := hagain 2 run hrun
  obtain ⟨again, hsecond, hsecondComes, -, hquiet⟩ :=
    hlater run.simulator (.ofItems [.error (.io "lost")])
  rw [hanswer] at hok
  cases hok
  rw [hstates, hlowest] at hsecondComes
  exact ⟨opened, s, rewound, answers, run, again, hopen, hops, hone,
    (hsame true [0] 1).mp ⟨2, run, hrun, hanswer, hstates, hlowest⟩, hrun, hpending, htwo,
    hrewind, hsecond, hsecondComes, hquiet⟩

end Simulation

end ShiftReduce
