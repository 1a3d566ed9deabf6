import ShiftReduce.Parser.Simulation
import ShiftReduce.Proofs.Automaton
import ShiftReduce.Proofs.Stream.Pending
import ShiftReduce.Proofs.TopDown

/-!
# Simulations follow the automaton

A simulation that decides has made a run of the automaton by itself: from the
same states, over the terminals that are pending at the cursor, with a quota of
shifts that is what the window has left. `Simulation.Follows` says so, and also
what happens to the stream on the way: no pending token is lost, and the terminals
that the run has looked at are all buffered.

* `Simulator.advance_spec`: what becomes of one terminal.
* `Simulator.advance_of_run`: the other way round, a simulator makes the moves that the automaton
  makes.
* `Simulation.run_follows`: a whole simulation.
-/

namespace ShiftReduce

open Automaton

variable {V : Type} {t : PackedTables} {x : SymbolId} {rule : RuleId} {found : Action}
  {fuel more : Nat} {v : Verdict}

namespace Automaton

/-- The verdict on a terminal that is no longer to be waited for. -/
def Reply.verdict? : Reply → Option Verdict
  | shift _ => some .shifted
  | reduce _ _ => none
  | accept _ => some .accepted
  | refuse _ => some .refused

/-- The least depth of the stack in the course of some moves, and before. -/
def lowest (depth : Nat) (rs : List Response) : Nat :=
  rs.foldl (fun depth r => min depth r.kept.length) depth

theorem Reply.verdict?_eq_shifted {r : Reply} (h : r.verdict? = some .shifted) :
    ∃ target, r = .shift target := by
  cases r <;> simp_all [verdict?]

theorem lowest_append (depth : Nat) (rs rs' : List Response) :
    lowest depth (rs ++ rs') = lowest (lowest depth rs) rs' :=
  List.foldl_append

end Automaton

namespace Simulator

variable {sim sim' : Simulator}

def column (sim : Simulator) : List StateId := sim.states.topDown

theorem column_ofStates (base : Array StateId) :
    (ofStates base).column = base.toList.reverse :=
  Stack.topDown_copyFrom _ _

theorem column_enter (sim : Simulator) (state : StateId) :
    (sim.enter state).column = state :: sim.column :=
  Stack.topDown_push _ _

theorem size_states (sim : Simulator) : sim.states.size = sim.column.length :=
  (Stack.length_topDown _).symm

/-- Dropping the right-hand side of a rule. -/
theorem column_dropTo (sim : Simulator) {length : Nat} (h : length ≤ sim.states.size) :
    (sim.dropTo (sim.states.size - length)).column = sim.column.drop length := by
  rw [column, dropTo, Stack.topDown_truncate, Nat.sub_sub_self h, column]

theorem top?_states (sim : Simulator) : sim.states.top? = sim.column.head? :=
  Stack.top?_eq_head? _

/-- A reduction fails without a goto where the rule is too long, and else it looks up
the goto of what is left. -/
theorem reduce_eq_ok (h : Simulator.reduce t rule sim = .ok (found, sim')) :
    ∃ info, t.rule rule = .ok info ∧
      ((sim.column.length ≤ info.length ∧ found = .error ∧ sim' = sim) ∨
        ∃ base rest, sim.column.drop info.length = base :: rest ∧
          t.goto base info.lhs = .ok found ∧ sim'.column = base :: rest ∧
          sim'.lowestDepth = min sim.lowestDepth (base :: rest).length) := by
  obtain ⟨info, hrule, h⟩ := bind_eq_ok.mp h
  refine ⟨info, hrule, ?_⟩
  split at h
  · rename_i hlong
    cases h
    rw [size_states] at hlong
    exact .inl ⟨hlong, rfl, rfl⟩
  · rename_i hshort
    have hcolumn := sim.column_dropTo (show info.length ≤ sim.states.size by omega)
    have hdepth : (sim.dropTo (sim.states.size - info.length)).lowestDepth =
        min sim.lowestDepth (sim.column.drop info.length).length := by
      rw [List.length_drop, ← size_states]
      rfl
    simp only [top?_states, hcolumn] at h
    -- The rule is shorter than the stack, so something is left below it.
    cases hdrop : sim.column.drop info.length with
    | nil =>
      rw [size_states] at hshort
      have := List.drop_eq_nil_iff.mp hdrop
      omega
    | cons base rest =>
      simp only [hdrop, List.head?_cons] at h
      obtain ⟨action, hgoto, h⟩ := bind_eq_ok.mp h
      cases h
      exact .inr ⟨base, rest, rfl, hgoto, by rw [hcolumn, hdrop], by rw [hdepth, hdrop]⟩

/-- A simulator has advanced by some moves of the automaton before a terminal. -/
structure Advanced (t : PackedTables) (x : SymbolId) (sim : Simulator) (rs : List Response)
    (stack : List StateId) (r : Response) (sim' : Simulator) : Prop where
  reduces : Reduces t x sim.column rs stack
  responds : Responds t x stack r
  column_eq : sim'.column = r.stack
  lowest_eq : sim'.lowestDepth = lowest sim.lowestDepth (rs ++ [r])
  bounded : sim'.lowestDepth ≤ sim'.column.length

/-- A move that is the last one. -/
theorem Advanced.last {r : Response} (hr : Responds t x sim.column r)
    (hcol : sim'.column = r.stack)
    (hdepth : sim'.lowestDepth = min sim.lowestDepth r.kept.length) :
    Advanced t x sim [] sim.column r sim' := by
  refine ⟨.refl, hr, hcol, hdepth, ?_⟩
  -- The stack after the move is what was kept, and one state more if it is a shift.
  rw [hdepth, hcol, Response.stack, List.length_append]
  exact Nat.le_trans (Nat.min_le_right _ _) (Nat.le_add_left _ _)

/-- A reduction goes in front of the moves that are made after it. -/
theorem Advanced.head {mid : Simulator} {rs : List Response} {stack : List StateId}
    {r₀ r : Response} {target : StateId} (hr : Responds t x sim.column r₀)
    (hreply : r₀.reply = .reduce rule target) (hcol : mid.column = r₀.stack)
    (hdepth : mid.lowestDepth = min sim.lowestDepth r₀.kept.length)
    (h : Advanced t x mid rs stack r sim') : Advanced t x sim (r₀ :: rs) stack r sim' := by
  have hreduces := h.reduces
  rw [hcol] at hreduces
  refine ⟨.head hr hreply hreduces, h.responds, h.column_eq, ?_, h.bounded⟩
  rw [h.lowest_eq, hdepth]
  rfl

/-- What becomes of one terminal: some reductions, and then one other move. -/
theorem advance_spec (h : advance t x fuel sim = .ok (v, sim')) (hne : sim.column ≠ [])
    (hlow : sim.lowestDepth ≤ sim.column.length) :
    ∃ rs stack r, Advanced t x sim rs stack r sim' ∧ r.reply.verdict? = some v := by
  induction fuel generalizing sim with
  | zero => cases h
  | succ fuel ih =>
    obtain ⟨s, below, hcolumn⟩ := List.exists_cons_of_ne_nil hne
    have hstay : sim.lowestDepth = min sim.lowestDepth (s :: below).length := by
      rw [← hcolumn]
      exact (Nat.min_eq_left hlow).symm
    rw [advance, top?_states, hcolumn, List.head?_cons] at h
    obtain ⟨action, hact, h⟩ := bind_eq_ok.mp h
    rw [liftM_eq_ok] at hact
    -- A move that decides comes without a reduction before it.
    have hlast : ∀ r, Responds t x (s :: below) r → sim'.column = r.stack →
        sim'.lowestDepth = min sim.lowestDepth r.kept.length → r.reply.verdict? = some v →
        ∃ rs stack r, Advanced t x sim rs stack r sim' ∧ r.reply.verdict? = some v := by
      intro r hr hcol hdepth hv
      exact ⟨[], _, r, .last (hcolumn ▸ hr) hcol hdepth, hv⟩
    cases action with
    | shift target =>
      cases h
      exact hlast _ (.shift hact) (by rw [column_enter, hcolumn]; rfl) hstay rfl
    | accept =>
      cases h
      exact hlast _ (.accept hact) hcolumn hstay rfl
    | error =>
      cases h
      exact hlast _ (.error hact) hcolumn hstay rfl
    | reduce rule =>
      obtain ⟨⟨found, reduced⟩, hred, hgo⟩ := bind_eq_ok.mp h
      obtain ⟨info, hrule, hcases⟩ := reduce_eq_ok (liftM_eq_ok.mp hred)
      rw [hcolumn] at hcases
      rcases hcases with ⟨hlong, rfl, rfl⟩ | ⟨base, rest, hdrop, hgoto, hbase, hdepth⟩
      · cases hgo
        exact hlast _ (.tooLong hact hrule hlong) hcolumn hstay rfl
      · cases found with
        | shift target =>
          have hmove : Responds t x sim.column ⟨.reduce rule target, base :: rest⟩ :=
            hcolumn ▸ .reduce hact hrule hdrop hgoto
          have hcol : (reduced.enter target).column = target :: base :: rest := by
            rw [column_enter, hbase]
          -- The depth is noted before the state is entered, so it stays below the new one.
          have hle : (reduced.enter target).lowestDepth ≤
              (reduced.enter target).column.length := by
            rw [hcol, List.length_cons]
            exact Nat.le_succ_of_le (hdepth ▸ Nat.min_le_right _ _)
          obtain ⟨rs, stack, r, hadv, hv⟩ := ih hgo (by simp [hcol]) hle
          exact ⟨_ :: rs, stack, r, hadv.head hmove rfl hcol hdepth, hv⟩
        | accept =>
          cases hgo
          exact hlast _ (.gotoAccept hact hrule hdrop hgoto) hbase hdepth rfl
        | reduce other =>
          cases hgo
          exact hlast _ (.stray hact hrule hdrop hgoto (by simp) (by simp)) hbase hdepth rfl
        | error =>
          cases hgo
          exact hlast _ (.stray hact hrule hdrop hgoto (by simp) (by simp)) hbase hdepth rfl

variable {rs rs' : List Response} {stack final : List StateId} {r : Response} {w : Nat}
  {input : Stream' SymbolId} {ok : Bool}

/-- After a shift, a run goes on with the next terminal. -/
theorem Advanced.shift (h : Advanced t x sim rs stack r sim') (hx : input.head = x)
    (hv : r.reply.verdict? = some .shifted) (hrun : Run t w sim'.column input.tail rs' ok final) :
    Run t (w + 1) sim.column input (rs ++ r :: rs') ok final ∧
      shifts (rs ++ r :: rs') = shifts rs' + 1 := by
  subst hx
  obtain ⟨target, hreply⟩ := Reply.verdict?_eq_shifted hv
  rw [h.column_eq] at hrun
  refine ⟨h.reduces.run (.shift h.responds hreply hrun), ?_⟩
  rw [shifts_append, h.reduces.shifts_eq_zero, shifts_cons, Response.isShift_of_reply hreply]
  simp

/-- A run ends where the automaton accepts or refuses. -/
theorem Advanced.ends (h : Advanced t x sim rs stack r sim') (hx : input.head = x)
    (hv : r.reply.verdict? = some v) (hlast : v ≠ .shifted) :
    Run t (w + 1) sim.column input (rs ++ [r]) (decide (v = .accepted)) sim'.column ∧
      shifts (rs ++ [r]) = 0 := by
  subst hx
  rw [h.column_eq]
  -- A reply that decides without a shift accepts or refuses.
  constructor
  · cases hreply : r.reply with
    | shift target =>
      rw [hreply] at hv
      cases hv
      exact absurd rfl hlast
    | reduce rule target =>
      rw [hreply] at hv
      cases hv
    | accept goto =>
      rw [hreply] at hv
      cases hv
      exact h.reduces.run (.accept h.responds hreply)
    | refuse reason =>
      rw [hreply] at hv
      cases hv
      exact h.reduces.run (.refuse h.responds hreply)
  · have hother : r.isShift = false := by
      apply Response.not_isShift_of_reply
      intro target hreply
      rw [hreply] at hv
      cases hv
      exact hlast rfl
    rw [shifts_append, h.reduces.shifts_eq_zero, shifts_cons, hother]
    rfl

/-! ## A simulator keeps up with the automaton -/

theorem reduce_of_long {info : Rule} (hrule : t.rule rule = .ok info)
    (h : sim.column.length ≤ info.length) :
    Simulator.reduce t rule sim = .ok (.error, sim) := by
  rw [Simulator.reduce, hrule, ok_bind, if_pos (sim.size_states ▸ h)]
  rfl

theorem reduce_of_drop {info : Rule} {s : StateId} {rest : List StateId}
    (hrule : t.rule rule = .ok info) (hdrop : sim.column.drop info.length = s :: rest)
    (hgoto : t.goto s info.lhs = .ok found) :
    ∃ sim', Simulator.reduce t rule sim = .ok (found, sim') ∧ sim'.column = s :: rest := by
  have hlt : info.length < sim.column.length := by
    rw [← List.drop_eq_nil_iff.not.trans Nat.not_le, hdrop]
    exact List.cons_ne_nil _ _
  have hcolumn := sim.column_dropTo (sim.size_states ▸ Nat.le_of_lt hlt)
  refine ⟨_, ?_, hcolumn.trans hdrop⟩
  rw [Simulator.reduce, hrule, ok_bind, if_neg (by rw [size_states]; omega)]
  dsimp only
  rw [top?_states, hcolumn, hdrop]
  simp only [List.head?_cons, hgoto, ok_bind]
  rfl

/-- The last move before a terminal needs fuel for one. -/
theorem advance_of_last (h : Responds t x sim.column r) (hv : r.reply.verdict? = some v) :
    ∃ sim', advance t x 1 sim = .ok (v, sim') ∧ sim'.column = r.stack := by
  generalize hcolumn : sim.column = column at h
  have htop : sim.states.top? = column.head? := hcolumn ▸ sim.top?_states
  -- One round is enough, since the move decides.
  cases h with
  | @shift _ target _ hact =>
    cases hv
    refine ⟨sim.enter target, ?_, (sim.column_enter target).trans (hcolumn ▸ rfl)⟩
    simp only [advance, htop, List.head?_cons, hact, liftM_ok, ok_bind]
    rfl
  | accept hact =>
    cases hv
    refine ⟨sim, ?_, hcolumn⟩
    simp only [advance, htop, List.head?_cons, hact, liftM_ok, ok_bind]
    rfl
  | error hact =>
    cases hv
    refine ⟨sim, ?_, hcolumn⟩
    simp only [advance, htop, List.head?_cons, hact, liftM_ok, ok_bind]
    rfl
  | tooLong hact hrule hlong =>
    cases hv
    refine ⟨sim, ?_, hcolumn⟩
    simp only [advance, htop, List.head?_cons, hact, liftM_ok, ok_bind,
      reduce_of_long hrule (hcolumn ▸ hlong)]
    rfl
  | reduce => cases hv
  | gotoAccept hact hrule hdrop hgoto =>
    cases hv
    obtain ⟨mid, hreduce, hmid⟩ := reduce_of_drop hrule (hcolumn ▸ hdrop) hgoto
    refine ⟨mid, ?_, hmid⟩
    simp only [advance, htop, List.head?_cons, hact, liftM_ok, ok_bind, hreduce]
    rfl
  | @stray _ _ _ _ _ _ found hact hrule hdrop hgoto hshift haccept =>
    cases hv
    obtain ⟨mid, hreduce, hmid⟩ := reduce_of_drop hrule (hcolumn ▸ hdrop) hgoto
    refine ⟨mid, ?_, hmid⟩
    simp only [advance, htop, List.head?_cons, hact, liftM_ok, ok_bind, hreduce]
    cases found with
    | shift target => exact absurd rfl (hshift target)
    | accept => exact absurd rfl haccept
    | _ => rfl

/-- After a reduction a simulator goes on with the rest of the fuel. -/
theorem advance_of_reduce {target : StateId} (h : Responds t x sim.column r)
    (hreply : r.reply = .reduce rule target) :
    ∃ sim', sim'.column = r.stack ∧ ∀ fuel, advance t x (fuel + 1) sim = advance t x fuel sim' := by
  generalize hcolumn : sim.column = column at h
  have htop : sim.states.top? = column.head? := hcolumn ▸ sim.top?_states
  cases h with
  | reduce hact hrule hdrop hgoto =>
    cases hreply
    obtain ⟨mid, hreduce, hmid⟩ := reduce_of_drop hrule (hcolumn ▸ hdrop) hgoto
    refine ⟨mid.enter target, (mid.column_enter target).trans (hmid ▸ rfl), fun fuel => ?_⟩
    simp only [advance, htop, List.head?_cons, hact, liftM_ok, ok_bind, hreduce]
  | _ => cases hreply

/-- The verdict on the first terminal of a run of the automaton, which goes on behind a shift. -/
theorem advance_of_run (h : Run t (w + 1) sim.column input rs ok final) :
    ∃ fuel v sim', advance t input.head fuel sim = .ok (v, sim') ∧
      (v = .shifted → ∃ rs', Run t w sim'.column input.tail rs' ok final) := by
  generalize hn : w + 1 = n at h
  generalize hcolumn : sim.column = column at h
  -- By induction on the run: the reductions in front are made, and then one other move.
  induction h generalizing sim with
  | full => cases hn
  | @shift _ _ _ _ _ rs _ target hr hreply hrest _ =>
    cases hn
    obtain ⟨sim', hadvance, hafter⟩ := advance_of_last (hcolumn ▸ hr) (congrArg _ hreply)
    exact ⟨1, .shifted, sim', hadvance, fun _ => ⟨rs, hafter ▸ hrest⟩⟩
  | reduce hr hreply _ ih =>
    obtain ⟨mid, hmid, hadvance⟩ := advance_of_reduce (hcolumn ▸ hr) hreply
    obtain ⟨fuel, v, sim', hrest, hgoes⟩ := ih hn hmid
    exact ⟨fuel + 1, v, sim', (hadvance fuel).trans hrest, hgoes⟩
  | accept hr hreply =>
    obtain ⟨sim', hadvance, -⟩ := advance_of_last (hcolumn ▸ hr) (congrArg _ hreply)
    exact ⟨1, .accepted, sim', hadvance, fun hv => nomatch hv⟩
  | refuse hr hreply =>
    obtain ⟨sim', hadvance, -⟩ := advance_of_last (hcolumn ▸ hr) (congrArg _ hreply)
    exact ⟨1, .refused, sim', hadvance, fun hv => nomatch hv⟩

end Simulator

namespace Simulation

variable {sim : Simulator} {stream : TokenStream V} {lexical : List LexicalError}
  {run : Simulation V} {w : Nat}

/-- A simulation from some states, over a stream, has made a run of the automaton,
and it has put what it has read into the buffer. -/
structure Follows (t : PackedTables) (w : Nat) (sim : Simulator) (stream : TokenStream V)
    (run : Simulation V) : Prop where
  buffering : run.stream.buffering = true
  window : run.stream.window = stream.window
  pending : run.stream.pending = stream.pending
  grows : stream.buffered <+: run.stream.buffered
  decides : ∀ ok, run.succeeded = .ok ok → ∃ rs,
    Run t w sim.column (stream.terminals.drop stream.read) rs ok run.simulator.column ∧
      stream.read + min w (shifts rs + 1) ≤ run.stream.buffered.length ∧
      run.simulator.lowestDepth = lowest sim.lowestDepth rs

/-- A simulation of one token and of some more follows the automaton. -/
theorem runTokens_follows (h : runTokens t fuel more sim stream lexical = .ok run)
    (hread : stream.read ≤ stream.buffered.length) (hne : sim.column ≠ [])
    (hlow : sim.lowestDepth ≤ sim.column.length) :
    Follows t (more + 1) sim stream run := by
  -- By induction on what is left of the quota: each shift leaves less of it.
  induction more using Nat.strongRecOn generalizing sim stream lexical with
  | ind more ih =>
    unfold runTokens at h
    obtain ⟨d, hnext, h⟩ := bind_eq_ok.mp h
    obtain ⟨hmode, hwindow, hpending, hgrows, hresult⟩ :=
      TokenStream.nextBuffered_spec (liftM_eq_ok.mp hnext) hread
    split at h
    · cases h
      exact ⟨hmode, hwindow, hpending, hgrows, fun ok hok => nomatch hok⟩
    · rename_i token htoken
      obtain ⟨htok, hcursor, hlen⟩ := hresult token htoken
      obtain ⟨⟨v, sim'⟩, hadvance, h⟩ := bind_eq_ok.mp h
      obtain ⟨rs, stack, r, hadv, hv⟩ := Simulator.advance_spec hadvance hne hlow
      have hhead : (stream.terminals.drop stream.read).head = token.id := by
        rw [htok, TokenStream.terminals, Stream'.drop_map, Stream'.head_map, Stream'.head_drop]
      cases v with
      | accepted =>
        cases h
        obtain ⟨hrun, hshifts⟩ := hadv.ends hhead hv (by simp)
        refine ⟨hmode, hwindow, hpending, hgrows, fun ok hok => ⟨_, ?_, ?_, hadv.lowest_eq⟩⟩
        · cases hok
          exact hrun
        · rw [hshifts]
          exact Nat.le_trans (by omega) hlen
      | refused =>
        cases h
        obtain ⟨hrun, hshifts⟩ := hadv.ends hhead hv (by simp)
        refine ⟨hmode, hwindow, hpending, hgrows, fun ok hok => ⟨_, ?_, ?_, hadv.lowest_eq⟩⟩
        · cases hok
          exact hrun
        · rw [hshifts]
          exact Nat.le_trans (by omega) hlen
      | shifted =>
        cases more with
        | zero =>
          cases h
          obtain ⟨hrun, hshifts⟩ := hadv.shift hhead hv .full
          refine ⟨hmode, hwindow, hpending, hgrows, fun ok hok => ⟨_, ?_, ?_, hadv.lowest_eq⟩⟩
          · cases hok
            exact hrun
          · exact Nat.le_trans (by omega) hlen
        | succ more =>
          have hne' : sim'.column ≠ [] := hadv.column_eq ▸ hadv.responds.stack_ne_nil
          have hrest := ih more (Nat.lt_succ_self more) h (hcursor ▸ hlen) hne' hadv.bounded
          refine ⟨hrest.buffering, hrest.window.trans hwindow, hrest.pending.trans hpending,
            hgrows.trans hrest.grows, ?_⟩
          intro ok hok
          obtain ⟨rs', hrun, hbuffered, hlowest⟩ := hrest.decides ok hok
          -- The rest of the simulation has read on behind the token that was shifted.
          rw [hcursor, TokenStream.terminals, hpending, ← TokenStream.terminals,
            ← Stream'.tail_drop'] at hrun
          rw [hcursor] at hbuffered
          obtain ⟨hrun, hshifts⟩ := hadv.shift hhead hv hrun
          refine ⟨_, hrun, by omega, ?_⟩
          rw [hlowest, hadv.lowest_eq, ← lowest_append, List.append_assoc, List.singleton_append]

/-- A simulation from the states of a stack follows the automaton. It has to shift
what the window has left, and at least one terminal. -/
theorem run_follows {base : Array StateId} (h : Simulation.run t fuel base stream = .ok run)
    (hread : stream.read ≤ stream.buffered.length) (hne : base.toList ≠ []) :
    Follows t (max (stream.window - stream.read) 1) (.ofStates base) stream run := by
  have hw : max (stream.window - stream.read) 1 = stream.window - stream.read - 1 + 1 := by omega
  rw [hw]
  refine runTokens_follows h hread ?_ ?_
  · rw [Simulator.column_ofStates]
    simpa using hne
  · rw [Simulator.column_ofStates, List.length_reverse, Array.length_toList]
    exact Nat.le_refl _

end Simulation

end ShiftReduce
