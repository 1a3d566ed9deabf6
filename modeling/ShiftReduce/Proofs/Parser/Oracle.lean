import ShiftReduce.Proofs.Parser.Steps

/-!
# Simulations foretell the parse

A simulation and the parser are two automata: one works on states alone and on
tokens that come again, the other on symbols and actions and in passing. Both
follow the same moves.

* `Drives`: the parser makes given moves, whatever fuel it has.
* `performs_of_run`: it carries out a run of the automaton whose terminals are at hand.
* `Goes.clear`: what is left of a feasible run is feasible after each step.
-/

namespace ShiftReduce

open Automaton

variable {σ V : Type} {p : Parser σ V} {fuel w : Nat} {c c' : Configuration σ V}
  {q q' : Progress σ V} {token token' : Symbol V} {rs : List Response} {ok : Bool}
  {column final : List StateId} {input : Stream' SymbolId}

namespace Parser

/-- The parser makes given moves, one a step and with any fuel. None of them is a
refusal. -/
inductive Drives (p : Parser σ V) : Progress σ V → List Response → Progress σ V → Prop
  | refl {q : Progress σ V} : Drives p q [] q
  | head {token : Symbol V} {c : Configuration σ V} {r : Response} {rs : List Response}
      {q q' : Progress σ V} : Responds p.tables token.id c.stack.column r →
      (∀ reason, r.reply ≠ .refuse reason) → (∀ fuel, p.step fuel token c = .ok q) →
      q.configuration.stack.column = r.stack → Drives p q rs q' →
      Drives p (.running token c) (r :: rs) q'

/-- How the parser stops at a move that the automaton refuses: at the error action, or
outside the contract of a rule or a goto. -/
def Refuses (p : Parser σ V) (token : Symbol V) (c : Configuration σ V) : Refusal → Prop
  | .errorAction => ∃ top below, c.stack.topDown = top :: below ∧
      p.tables.action top.state token.id = .ok .error
  | .ruleTooLong rule length => ∀ fuel,
      p.step fuel token c = .error (.breach (.ruleTooLong rule length c.stack.depth))
  | .strayNonterminal lhs state found => ∀ fuel,
      p.step fuel token c = .error (.breach (.strayNonterminal lhs state found))

theorem refuses_of_responds {r : Response} {reason : Refusal}
    (hr : Responds p.tables token.id c.stack.column r) (hreply : r.reply = .refuse reason)
    (htotal : p.actions.Total) : p.Refuses token c reason := by
  cases reason with
  | errorAction => exact topDown_of_responds_error hr hreply
  | ruleTooLong rule length => exact fun fuel => step_of_tooLong hr hreply fuel
  | strayNonterminal lhs state found => exact fun fuel => step_of_stray hr hreply htotal fuel

/-- The parser is where a run of the automaton starts, and the terminals that the run
looks at are at hand. -/
def Ready (w : Nat) (column : List StateId) (input : Stream' SymbolId) (ahead : Nat)
    (q : Progress σ V) : Prop :=
  q.configuration.stack.column = column ∧ q.configuration.stream.buffering = false ∧
    (0 < w → ∃ token c, q = .running token c ∧
      Stream'.cons token.id c.stream.terminals = input ∧
      min w ahead ≤ c.stream.buffered.length + 1)

/-- Reading makes ready what was ready before a shift. -/
theorem Ready.read {ahead : Nat} (hread : c.readToken = .ok q)
    (hmode : c.stream.buffering = false) (hinput : c.stream.terminals = input)
    (hahead : min (w + 1) (ahead + 1) ≤ c.stream.buffered.length + 1) (hpos : 0 < ahead) :
    Ready w c.stack.column input ahead q := by
  have hreads := Configuration.readToken_spec hread
  refine ⟨by rw [hreads.stack_eq], hreads.buffering_eq, ?_⟩
  intro hw
  cases hbuf : c.stream.buffered with
  | nil =>
    rw [hbuf, List.length_nil] at hahead
    omega
  | cons token rest =>
    obtain ⟨c', hread', hrest⟩ := Configuration.readToken_of_buffered hmode hbuf
    rw [hread] at hread'
    cases hread'
    refine ⟨token, c', rfl, ?_, ?_⟩
    · rw [← hinput]
      exact (TokenStream.terminals_of_pending (hreads.pending_eq _ _ rfl)).symm
    · rw [hrest]
      rw [hbuf, List.length_cons] at hahead
      omega

/-- The parser has carried out a run of the automaton: all of it, if the run succeeds,
and otherwise all but the last move, which is refused. -/
structure Performs (p : Parser σ V) (w : Nat) (rs : List Response) (ok : Bool)
    (final : List StateId) (q : Progress σ V) (rs' : List Response) (q' : Progress σ V) :
    Prop where
  drives : p.Drives q rs' q'
  succeeds : ok = true → rs' = rs ∧ q'.configuration.stack.column = final ∧
    ((∃ value c', q' = .finished (.ok value) c') ∨ shifts rs = w)
  fails : ok = false → ∃ token c' r reason, q' = .running token c' ∧ rs = rs' ++ [r] ∧
    Responds p.tables token.id c'.stack.column r ∧ r.reply = .refuse reason

/-- A move goes in front of what the parser carries out after it. -/
theorem Performs.head {r : Response} {rs' : List Response} {w' : Nat}
    (h : Performs p w rs ok final q rs' q') (hr : Responds p.tables token.id c.stack.column r)
    (hreply : ∀ reason, r.reply ≠ .refuse reason) (hstep : ∀ fuel, p.step fuel token c = .ok q)
    (hstack : q.configuration.stack.column = r.stack) (hw : w' = w + if r.isShift then 1 else 0) :
    Performs p w' (r :: rs) ok final (.running token c) (r :: rs') q' := by
  refine ⟨.head hr hreply hstep hstack h.drives, ?_, ?_⟩
  · intro hok
    obtain ⟨rfl, hfinal, hend⟩ := h.succeeds hok
    refine ⟨rfl, hfinal, hend.imp_right ?_⟩
    intro hfull
    rw [shifts_cons, hfull, hw]
  · intro hok
    obtain ⟨token', c', r', reason, hq', hrs, hr', hreply'⟩ := h.fails hok
    exact ⟨token', c', r', reason, hq', by rw [hrs, List.cons_append], hr', hreply'⟩

/-- The parser carries out every run whose terminals are at hand. -/
theorem performs_of_run (hrun : Run p.tables w column input rs ok final) (htotal : p.actions.Total)
    (hq : Ready w column input (shifts rs + 1) q) :
    ∃ rs' q', Performs p w rs ok final q rs' q' := by
  -- By induction on the run. Before each move, the terminals that it looks at are buffered,
  -- so that reading cannot meet a fault.
  induction hrun generalizing q with
  | full =>
    refine ⟨[], q, .refl, ?_, ?_⟩
    · intro _
      exact ⟨rfl, hq.1, .inr rfl⟩
    · intro hok
      cases hok
  | @shift w column final input r rs ok target hr hreply _ ih =>
    obtain ⟨token, c, rfl, rfl, hahead⟩ := hq.2.2 (Nat.succ_pos w)
    obtain ⟨hcol, hmode, -⟩ := hq
    rw [Progress.configuration_running] at hcol hmode
    rw [← hcol] at hr
    have hshift := Response.isShift_of_reply hreply
    rw [shifts_cons, hshift, if_pos rfl] at hahead
    have hstream : (p.shifted target token c).stream = c.stream := shifted_stream p target token c
    obtain ⟨q₁, hread⟩ := Configuration.exists_readToken (c := p.shifted target token c)
      (hstream ▸ hmode)
    have hstep := step_of_shift hr hreply
    have hready : Ready w r.stack c.stream.terminals (shifts rs + 1) q₁ := by
      rw [← (hstep 0).2]
      exact .read hread (hstream ▸ hmode) (by rw [hstream]) (hstream ▸ hahead) (Nat.succ_pos _)
    have hsteps : ∀ fuel, p.step fuel token c = .ok q₁ := by
      intro fuel
      rw [(hstep fuel).1, hread]
      rfl
    obtain ⟨rs', q', hperforms⟩ := ih hready
    exact ⟨r :: rs', q', hperforms.head hr (by simp [hreply]) hsteps hready.1 (by rw [hshift]; rfl)⟩
  | @reduce w column final input r rs ok rule target hr hreply _ ih =>
    obtain ⟨token, c, rfl, rfl, hahead⟩ := hq.2.2 (Nat.succ_pos w)
    obtain ⟨hcol, hmode, -⟩ := hq
    rw [Progress.configuration_running] at hcol hmode
    rw [← hcol] at hr
    have hother : r.isShift = false := Response.not_isShift_of_reply (by simp [hreply])
    rw [shifts_cons, hother, if_neg Bool.false_ne_true, Nat.add_zero] at hahead
    obtain ⟨info, memory, lhs, hsteps, hstack⟩ := step_of_reduce hr hreply htotal
    have hstream : ((p.reduced rule info memory c).push target lhs).stream = c.stream := by
      rw [Configuration.push_stream, reduced_stream]
    have hready : Ready (w + 1) r.stack (Stream'.cons token.id c.stream.terminals)
        (shifts rs + 1) (.running token ((p.reduced rule info memory c).push target lhs)) :=
      ⟨hstack, hstream ▸ hmode, fun _ => ⟨token, _, rfl, by rw [hstream], hstream ▸ hahead⟩⟩
    obtain ⟨rs', q', hperforms⟩ := ih hready
    exact ⟨r :: rs', q', hperforms.head hr (by simp [hreply]) hsteps hstack (by rw [hother]; rfl)⟩
  | @accept w column input r goto hr hreply =>
    obtain ⟨token, c, rfl, rfl, -⟩ := hq.2.2 (Nat.succ_pos w)
    rw [← hq.1] at hr
    obtain ⟨value, c', hstep, hstack⟩ := step_of_accept hr hreply htotal
    refine ⟨[r], _, .head hr (by simp [hreply]) hstep hstack .refl, ?_, ?_⟩
    · intro _
      exact ⟨rfl, hstack, .inl ⟨value, c', rfl⟩⟩
    · intro hok
      cases hok
  | @refuse w column input r reason hr hreply =>
    obtain ⟨token, c, rfl, rfl, -⟩ := hq.2.2 (Nat.succ_pos w)
    rw [← hq.1] at hr
    refine ⟨[], _, .refl, ?_, ?_⟩
    · intro hok
      cases hok
    · intro _
      exact ⟨token, c, r, reason, rfl, rfl, hr, hreply⟩

/-! ## Behind a repair -/

/-- The parse is free of errors until `target` tokens have been shifted in all. -/
def Clear (p : Parser σ V) (target : Nat) : Progress σ V → Prop
  | .running token c => ∃ n, target ≤ n + c.stats.tokensShifted ∧
      Feasible p.tables n c.stack.column (Stream'.cons token.id c.stream.terminals)
  | .finished _ _ => True

theorem feasible_zero (t : PackedTables) (column : List StateId) (input : Stream' SymbolId) :
    Feasible t 0 column input :=
  ⟨[], column, .full⟩

/-- A move of a run that is feasible is not a refusal, and what is left of the run is
feasible after it. -/
theorem feasible_succ {t : PackedTables} {n : Nat} {r : Response}
    (h : Feasible t (n + 1) column input) (hr : Responds t input.head column r) :
    match r.reply with
    | .shift _ => Feasible t n r.stack input.tail
    | .reduce _ _ => Feasible t (n + 1) r.stack input
    | .accept _ => True
    | .refuse _ => False := by
  obtain ⟨rs, final, hrun⟩ := h
  obtain ⟨r', rest, rfl, hr', hrest⟩ := hrun.first
  obtain rfl := hr.unique hr'
  cases hreply : r.reply with
  | shift target =>
    rw [hreply] at hrest
    exact ⟨rest, final, hrest⟩
  | reduce rule target =>
    rw [hreply] at hrest
    exact ⟨rest, final, hrest⟩
  | accept goto => trivial
  | refuse reason =>
    rw [hreply] at hrest
    exact Bool.false_ne_true hrest.2.1.symm

theorem Goes.tokensShifted_le (h : Goes p token c token' c') :
    c.stats.tokensShifted ≤ c'.stats.tokensShifted := by
  cases h with
  | shift _ _ _ _ _ hshifted => omega
  | reduce _ _ _ _ _ _ hshifted => omega
  | repair _ _ _ _ _ _ _ hshifted => omega

/-- Being free of errors is preserved by each step that goes on. -/
theorem Goes.clear {target : Nat} (h : Goes p token c token' c')
    (hc : p.Clear target (.running token c)) : p.Clear target (.running token' c') := by
  have hle := h.tokensShifted_le
  obtain ⟨n, htarget, hfeasible⟩ := hc
  cases n with
  | zero => exact ⟨0, by omega, feasible_zero _ _ _⟩
  | succ n =>
    cases h with
    | shift hr hreply hstack hpending _ hshifted =>
      have hnext := feasible_succ hfeasible hr
      rw [hreply] at hnext
      refine ⟨n, by omega, ?_⟩
      rw [hstack, ← TokenStream.terminals_of_pending hpending]
      exact hnext
    | reduce hr hreply hstack htoken hpending _ hshifted =>
      have hnext := feasible_succ hfeasible hr
      rw [hreply] at hnext
      refine ⟨n + 1, by omega, ?_⟩
      rw [hstack, htoken, TokenStream.terminals, hpending]
      exact hnext
    | repair htop herror _ _ _ _ _ _ =>
      rw [ParseStack.column, htop] at hfeasible
      exact (feasible_succ hfeasible (.error herror)).elim

theorem Clear.reaches {target : Nat} (h : Relation.ReflTransGen p.Step q q')
    (hclear : p.Clear target q) (hpassing : Passing w q) : p.Clear target q' := by
  induction h with
  | refl => exact hclear
  | @tail q₁ q₂ hreach hstep ih =>
    cases hstep with
    | intro hstep =>
      cases q₂ with
      | finished result c' => trivial
      | running token' c' =>
        exact (step_goes hstep (hpassing.reaches hreach).1).1.clear ih

/-- After a repair the parse is free of errors for a window. -/
theorem clear_of_repaired {c₁ : Configuration σ V} {top : Entry V} {below : List (Entry V)}
    (hrecover : Recovery.recover p fuel token c = .ok (.repaired c₁))
    (hstack : c.stack.topDown = top :: below)
    (herror : p.tables.action top.state token.id = .ok .error) (hread : c₁.readToken = .ok q) :
    p.Clear (c₁.stats.tokensShifted + max c.stream.window 1) q ∧
      Passing c₁.stream.window q := by
  have hreads := Configuration.readToken_spec hread
  have heof : token.id ≠ eof := by
    intro heof
    rw [Recovery.recover_of_eof p fuel _ heof] at hrecover
    cases hrecover
  obtain ⟨hresolves, -⟩ := Recovery.recover_spec (i := c.impasse top below token) hrecover hstack
    rfl heof herror
  cases q with
  | finished result c' => exact ⟨trivial, trivial⟩
  | running token' c' =>
    cases hresolves with
    | @repaired P _ ho hc =>
      refine ⟨⟨max c.stream.window 1, ?_, ?_⟩, hreads.buffering_eq, hreads.window_eq⟩
      · rw [show c'.stats = c₁.stats from hreads.stats_eq, Nat.add_comm]
      · rw [show c'.stack = c₁.stack from hreads.stack_eq,
          ← TokenStream.terminals_of_pending (hreads.pending_eq _ _ rfl),
          Recovery.feasible_iff hc.stack hc.pending]
        exact ho.feasible

/-- A simulation that decides has made a run of the automaton, and the parser makes the
same moves from the same stack and stream. -/
theorem performs_of_simulation {sim : Simulation V} (htotal : p.actions.Total)
    (hne : 0 < c.stack.depth) (hread : c.stream.read = 0)
    (hsim : Simulation.run p.tables fuel c.stack.states c.stream = .ok sim)
    (hok : sim.succeeded = .ok ok) :
    ∃ rs start rs' q, Run p.tables (max c.stream.window 1) c.stack.column c.stream.terminals rs ok
        sim.simulator.column ∧
      ({ c with stream := sim.stream.setBuffering false } : Configuration σ V).readToken =
        .ok start ∧
      Performs p (max c.stream.window 1) rs ok sim.simulator.column start rs' q := by
  have hlen : c.stack.states.toList.length = c.stack.depth := by
    rw [Array.length_toList, c.stack.size_states]
  have hfollows := Simulation.run_follows hsim (by rw [hread]; exact Nat.zero_le _)
    (List.ne_nil_of_length_pos (hlen ▸ hne))
  obtain ⟨rs, hrun, hahead, -⟩ := hfollows.decides ok hok
  rw [Simulator.column_ofStates, ← c.stack.column_eq_reverse_states, hread, Nat.sub_zero,
    Stream'.drop_zero] at hrun
  rw [hread, Nat.sub_zero, Nat.zero_add] at hahead
  -- The first token that the simulation has read is at hand again.
  obtain ⟨token, rest, hbuf⟩ : ∃ token rest, sim.stream.buffered = token :: rest := by
    apply List.exists_cons_of_length_pos
    omega
  obtain ⟨c₁, hstart, hrest⟩ := Configuration.readToken_of_buffered
    (c := { c with stream := sim.stream.setBuffering false }) rfl hbuf
  have hreads := Configuration.readToken_spec hstart
  have hready : Ready (max c.stream.window 1) c.stack.column c.stream.terminals (shifts rs + 1)
      (.running token c₁) := by
    refine ⟨by rw [hreads.stack_eq], hreads.buffering_eq, ?_⟩
    intro _
    refine ⟨token, c₁, rfl, ?_, ?_⟩
    · rw [← TokenStream.terminals_of_pending (hreads.pending_eq _ _ rfl)]
      exact congrArg (Stream'.map Symbol.id) hfollows.pending
    · rw [hrest]
      rw [hbuf, List.length_cons] at hahead
      exact hahead
  obtain ⟨rs', q, hperforms⟩ := performs_of_run hrun htotal hready
  exact ⟨rs, _, rs', q, hrun, hstart, hperforms⟩

/-- A simulation that succeeds foretells all moves until the parser accepts or has
shifted a window of tokens, and one that fails foretells an error or a breach before
that. So after a repair the next syntax error comes a window of tokens later. -/
theorem simulation_foretells_parse (htotal : p.actions.Total) (hne : 0 < c.stack.depth) :
    (∀ fuel sim ok, c.stream.read = 0 →
      Simulation.run p.tables fuel c.stack.states c.stream = .ok sim → sim.succeeded = .ok ok →
      ∃ rs start rs' q,
        Run p.tables (max c.stream.window 1) c.stack.column c.stream.terminals rs ok
          sim.simulator.column ∧
        ({ c with stream := sim.stream.setBuffering false } : Configuration σ V).readToken =
          .ok start ∧ p.Drives start rs' q ∧
        (ok = true → rs' = rs ∧ q.configuration.stack.states = sim.simulator.states.items ∧
          ((∃ value c', q = .finished (.ok value) c') ∨ shifts rs' = max c.stream.window 1)) ∧
        (ok = false → shifts rs' < max c.stream.window 1 ∧
          ∃ token c' reason, q = .running token c' ∧ p.Refuses token c' reason)) ∧
    ∀ fuel token top below c₁ q token' c₂ top' below', c.stack.topDown = top :: below →
      p.tables.action top.state token.id = .ok .error →
      Recovery.recover p fuel token c = .ok (.repaired c₁) → c₁.readToken = .ok q →
      Relation.ReflTransGen p.Step q (.running token' c₂) → c₂.stack.topDown = top' :: below' →
      p.tables.action top'.state token'.id = .ok .error →
      c₁.stats.tokensShifted + max c.stream.window 1 ≤ c₂.stats.tokensShifted := by
  constructor
  · intro fuel sim ok hread hsim hok
    obtain ⟨rs, start, rs', q, hrun, hstart, hperforms⟩ :=
      performs_of_simulation htotal hne hread hsim hok
    refine ⟨rs, start, rs', q, hrun, hstart, hperforms.drives, ?_, ?_⟩
    · intro hok'
      obtain ⟨rfl, hcolumn, hend⟩ := hperforms.succeeds hok'
      refine ⟨rfl, ?_, hend⟩
      rw [ParseStack.column_eq_reverse_states, Simulator.column, Stack.topDown] at hcolumn
      exact Array.toList_inj.mp (List.reverse_inj.mp hcolumn)
    · intro hok'
      obtain ⟨token, c', r, reason, rfl, rfl, hr, hreply⟩ := hperforms.fails hok'
      have hlt := hrun.shifts_le.2 hok'
      rw [shifts_append] at hlt
      exact ⟨by omega, token, c', reason, rfl, refuses_of_responds hr hreply htotal⟩
  · intro fuel token top below c₁ q token' c₂ top' below' hstack herror hrecover hread hreach
      hstack' herror'
    obtain ⟨hclear, hpassing⟩ := clear_of_repaired hrecover hstack herror hread
    obtain ⟨n, htarget, hfeasible⟩ := hclear.reaches hreach hpassing
    -- If shifts were still to come, the run would make a move here that is not a refusal.
    cases n with
    | zero => omega
    | succ n =>
      rw [ParseStack.column, hstack'] at hfeasible
      exact (feasible_succ hfeasible (.error herror')).elim

/-- A configuration behind a letter, with nothing left to read. A simulation of it
succeeds, and another letter as the current token can be repaired. -/
theorem exists_behind_letter : ∃ c : Configuration Unit Unit,
    c.stack.topDown = [⟨1, letter⟩, ⟨startState, .empty eof .zero .zero⟩] ∧ c.stream.read = 0 ∧
    c.stream.window = 3 ∧
    (Simulation.run oneLetterTables 10 c.stack.states c.stream).toOption.any
      (fun sim => decide (sim.succeeded = .ok true)) = true ∧
    (Recovery.recover oneLetter 10 letter c).toOption.any Repair.isRepaired = true := by
  refine ⟨{ Configuration.initial ⟨.ofTokens [], .blank 8 (by decide), 0, true, 3⟩ () with
    stack := (ParseStack.ofState startState).push 1 letter }, rfl, rfl, rfl, ?_, ?_⟩
  · decide +kernel
  · decide +kernel

/-- Behind a letter, the parser makes the moves of a simulation, and after the repair of
another letter a window of three tokens is free of errors. -/
theorem simulation_foretells_oneLetter : ∃ c sim c₁, 0 < c.stack.depth ∧
    Simulation.run oneLetterTables 10 c.stack.states c.stream = .ok sim ∧
    sim.succeeded = .ok true ∧ Recovery.recover oneLetter 10 letter c = .ok (.repaired c₁) ∧
    (∃ start rs q, oneLetter.Drives start rs q ∧
      q.configuration.stack.states = sim.simulator.states.items) ∧
    ∀ q token c₂ top below, c₁.readToken = .ok q →
      Relation.ReflTransGen oneLetter.Step q (.running token c₂) →
      c₂.stack.topDown = top :: below →
      oneLetterTables.action top.state token.id = .ok .error →
      c₁.stats.tokensShifted + 3 ≤ c₂.stats.tokensShifted := by
  obtain ⟨c, hstack, hread, hwindow, hsim, hrepaired⟩ := exists_behind_letter
  obtain ⟨sim, hrun, hok⟩ := exists_ok_of_any hsim
  obtain ⟨r, hrecover, hr⟩ := exists_ok_of_any hrepaired
  have hne : 0 < c.stack.depth := by
    rw [← c.stack.length_column, ParseStack.column, hstack]
    decide
  have htotal : oneLetter.actions.Total := fun _ _ memory => ⟨(none, memory), rfl⟩
  obtain ⟨hfirst, hsecond⟩ := simulation_foretells_parse htotal hne
  obtain ⟨rs, start, rs', q, -, -, hdrives, htrue, -⟩ :=
    hfirst 10 sim true hread hrun (of_decide_eq_true hok)
  cases r with
  | aborted e c₁ => cases hr
  | repaired c₁ =>
    refine ⟨c, sim, c₁, hne, hrun, of_decide_eq_true hok, hrecover,
      ⟨start, rs', q, hdrives, (htrue rfl).2.1⟩, ?_⟩
    intro q token c₂ top below hq hreach htop herror
    have hlater := hsecond 10 letter _ _ c₁ q token c₂ top below hstack rfl hrecover hq hreach htop
      herror
    rw [hwindow] at hlater
    exact hlater

end Parser

end ShiftReduce
