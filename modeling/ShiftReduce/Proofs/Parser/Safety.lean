import ShiftReduce.Proofs.Parser.Moments
import ShiftReduce.Proofs.Parser.Opening
import ShiftReduce.Proofs.Parser.Oracle
import ShiftReduce.Proofs.Recovery.Containment

/-!
# Parses keep within their contracts

What can go wrong in a parse: a reduction takes more symbols off than there are, or leads to
a state without a goto; a lookup fails, where the tables are not closed; an action fails by
itself. Nothing else does. The stack is never empty, the stream is read in the right mode,
and the buffer does not run over.

`Steady` is the invariant between two steps. Its heart is that whatever is held back has been
simulated: the automaton can go on over all of it. So at a syntax error nothing is held
back, and what one recovery leaves in the buffer is gone before the next one.

* `Steady.step_returns`: one step keeps the invariant, or goes wrong in one of these ways.
* `Reachable.settled` and `run_returns`: a whole run.
* `checked_tables_are_closed`: for which tables no run asks for what is not defined.
* `built_tables_break_two_contracts`: what can go wrong with tables that are built.
-/

namespace ShiftReduce

open Automaton ShiftReduce.Configuration

variable {σ V : Type} {A : SymbolId → Prop} {D : StateId → Prop} {fails : Breach → Prop}
  {p : Parser σ V}
  {fuel w l n k : Nat} {m : σ} {c c' : Configuration σ V} {token : Symbol V}
  {q q' : Progress σ V} {scanner : Scanner V} {goal : Option SymbolId}

namespace Configuration

theorem readToken_fits (h : c.readToken = .ok q) (hc : c.stream.Fits w l n) :
    q.configuration.stream.Fits w 0 (n - 1) := by
  obtain ⟨d, hnext, h⟩ := bind_eq_ok.mp h
  have hd := hc.next hnext
  dsimp only at h
  split at h
  · cases h
    exact hd
  · cases h
    exact hd

end Configuration

namespace Parser

/-- The contracts that a parse can break. -/
inductive Fails (p : Parser σ V) (fails : Breach → Prop) : Breach → Prop
  | lookup {b : Breach} : fails b → Fails p fails b
  | action {rule : RuleId} {args : Args V} {memory : σ} {b : Breach} :
      p.actions.reduce rule args memory = .error b → Fails p fails b
  | tooLong {rule : RuleId} {length depth : Nat} : Fails p fails (.ruleTooLong rule length depth)
  | stray {lhs : SymbolId} {state : StateId} {found : Action} :
      Fails p fails (.strayNonterminal lhs state found)

theorem Fails.mono {fails' : Breach → Prop} {b : Breach} (h : p.Fails fails b)
    (hfails : ∀ b, fails b → fails' b) : p.Fails fails' b := by
  cases h with
  | lookup hb => exact .lookup (hfails _ hb)
  | action hb => exact .action hb
  | tooLong => exact .tooLong
  | stray => exact .stray

/-- The number of tokens that confirm a repair. -/
def window (p : Parser σ V) : Nat := max p.settings.window 1

theorem one_le_window (p : Parser σ V) : 1 ≤ p.window := Nat.le_max_right _ _

/-- Between two steps. -/
structure Steady (p : Parser σ V) (A : SymbolId → Prop) (D : StateId → Prop) (token : Symbol V)
    (c : Configuration σ V) : Prop where
  states : ∀ s ∈ c.stack.column, D s
  column_ne : c.stack.column ≠ []
  asked : A token.id
  carries : c.stream.Carries A
  passing : c.stream.buffering = false
  fits : c.stream.Fits p.window 0 p.window
  /-- The automaton can go on over all that is held back. -/
  covered : ∃ n, c.stream.buffered.length ≤ n ∧
    Feasible p.tables n c.stack.column (Stream'.cons token.id c.stream.terminals)

/-- Where a parse goes on it is steady, and where it ends not too much is held back. -/
def Settled (p : Parser σ V) (A : SymbolId → Prop) (D : StateId → Prop) : Progress σ V → Prop
  | .running token c => p.Steady A D token c
  | .finished _ c => c.stream.Fits p.window 0 (p.window + 1)

/-- Reading the next token, if what is held back has been simulated. -/
theorem settled_readToken (hstates : ∀ s ∈ c.stack.column, D s) (hne : c.stack.column ≠ [])
    (hcarries : c.stream.Carries A) (hmode : c.stream.buffering = false)
    (hfits : c.stream.Fits p.window l n) (hn : n ≤ p.window + 1) (hk : n - 1 ≤ k)
    (hfeasible : Feasible p.tables k c.stack.column c.stream.terminals) :
    ∃ q, c.readToken = .ok q ∧ p.Settled A D q := by
  obtain ⟨q, hread⟩ := exists_readToken hmode
  have hreads := readToken_spec hread
  have hq := readToken_fits hread hfits
  refine ⟨q, hread, ?_⟩
  cases q with
  | finished result c' => exact hq.mono (Nat.le_refl _) (by omega)
  | running token c' =>
    have hstack : c'.stack = c.stack := hreads.stack_eq
    obtain ⟨hasked, hcarries'⟩ := hcarries.uncons (hreads.pending_eq token c' rfl)
    refine ⟨hstack ▸ hstates, hstack ▸ hne, hasked, hcarries', hreads.buffering_eq,
      hq.mono (Nat.le_refl _) (by omega), k, Nat.le_trans hq.most hk, ?_⟩
    rw [hstack, ← TokenStream.terminals_of_pending (hreads.pending_eq _ _ rfl)]
    exact hfeasible

/-- What is left of a feasible run after a move, also if nothing was left before. -/
theorem feasible_pred {t : PackedTables} {column : List StateId} {input : Stream' SymbolId}
    {r : Response} (h : Feasible t n column input) (hr : Responds t input.head column r) :
    match r.reply with
    | .shift _ => Feasible t (n - 1) r.stack input.tail
    | .reduce _ _ => Feasible t n r.stack input
    | .accept _ => True
    | .refuse _ => n = 0 := by
  cases n with
  | zero =>
    cases r.reply with
    | shift target => exact feasible_zero _ _ _
    | reduce rule target => exact feasible_zero _ _ _
    | accept goto => trivial
    | refuse reason => rfl
  | succ n =>
    have hnext := feasible_succ h hr
    cases hreply : r.reply with
    | shift target =>
      rw [hreply] at hnext
      exact hnext
    | reduce rule target =>
      rw [hreply] at hnext
      exact hnext
    | accept goto => trivial
    | refuse reason =>
      rw [hreply] at hnext
      exact hnext.elim

/-- A repair has been confirmed by a window of tokens. -/
theorem feasible_of_repaired {top : Entry V} {below : List (Entry V)}
    (hrecover : Recovery.recover p fuel token c = .ok (.repaired c'))
    (hstack : c.stack.topDown = top :: below)
    (herror : p.tables.action top.state token.id = .ok .error) :
    Feasible p.tables (max c.stream.window 1) c'.stack.column c'.stream.terminals := by
  have heof : token.id ≠ eof := by
    intro heof
    rw [Recovery.recover_of_eof p fuel _ heof] at hrecover
    cases hrecover
  obtain ⟨hresolves, -⟩ := Recovery.recover_spec (i := c.impasse top below token) hrecover hstack
    rfl heof herror
  cases hresolves with
  | repaired ho hc =>
    rw [Recovery.feasible_iff hc.stack hc.pending]
    exact ho.feasible

namespace Steady

/-- At a syntax error nothing is held back. -/
theorem buffered_eq_nil (h : p.Steady A D token c) {s : StateId} {below : List StateId}
    (hcol : c.stack.column = s :: below) (hact : p.tables.action s token.id = .ok .error) :
    c.stream.buffered = [] := by
  obtain ⟨n, hle, hfeasible⟩ := h.covered
  rw [hcol] at hfeasible
  have hzero : n = 0 := feasible_pred hfeasible (.error hact)
  subst hzero
  exact List.eq_nil_of_length_eq_zero (Nat.le_zero.mp hle)

/-- What recovery begins with. -/
theorem kept_reported (h : p.Steady A D token c) {s : StateId} {below : List StateId}
    (hcol : c.stack.column = s :: below) (hact : p.tables.action s token.id = .ok .error) :
    Kept A D c.memory p.window 0 0 (c.reported token) := by
  refine ⟨h.states, h.column_ne, ?_, h.carries, rfl⟩
  refine ⟨h.fits.window_eq, h.fits.room, Nat.zero_le _, ?_⟩
  show c.stream.buffered.length ≤ 0
  rw [h.buffered_eq_nil hcol hact]
  exact Nat.le_refl _

/-- A shift takes the current token over, and whatever is held back behind it. -/
theorem shift_returns (hl : p.tables.Leads A D fails) (h : p.Steady A D token c)
    {s target : StateId} {below : List StateId} (hcol : c.stack.column = s :: below)
    (hact : p.tables.action s token.id = .ok (.shift target)) :
    ∃ q, (p.shifted target token c).readToken = .ok q ∧ p.Settled A D q := by
  obtain ⟨n, hle, hfeasible⟩ := h.covered
  have hs : D s := h.states s (hcol ▸ List.mem_cons_self)
  have htarget : D target := ((hl.action s token.id hs h.asked).of_eq_ok hact).1 target rfl
  have hcolumn : (p.shifted target token c).stack.column = target :: c.stack.column := by
    rw [shifted, push_stack, ParseStack.column_push, count_stack, trace_stack]
  have hstream : (p.shifted target token c).stream = c.stream := shifted_stream _ _ _ _
  have hnext : Feasible p.tables (n - 1) (target :: s :: below) c.stream.terminals := by
    rw [hcol] at hfeasible
    exact feasible_pred hfeasible (.shift hact)
  refine settled_readToken (l := 0) (n := min n p.window) (k := n - 1) ?_ ?_
    (hstream ▸ h.carries) (hstream ▸ h.passing) ?_ (by omega) (by omega) ?_
  · intro s' hs'
    rw [hcolumn] at hs'
    rcases List.mem_cons.mp hs' with rfl | hs'
    · exact htarget
    · exact h.states s' hs'
  · simp [hcolumn]
  · rw [hstream]
    exact ⟨h.fits.window_eq, h.fits.room, Nat.zero_le _, Nat.le_min.mpr ⟨hle, h.fits.most⟩⟩
  · rw [hcolumn, hstream, hcol]
    exact hnext

/-- Following a goto. -/
theorem follow_returns (hl : p.tables.Leads A D fails) {base : StateId} {lhs : Symbol V}
    (hbase : D base) (hlhs : A lhs.id) (hfits : c.stream.Fits p.window 0 p.window)
    (hnext : ∀ target, D target → p.tables.goto base lhs.id = .ok (.shift target) →
      p.Steady A D token (c.push target lhs)) :
    Returns (p.Fails fails) (p.Settled A D) (p.follow base token lhs c) := by
  unfold follow
  apply ((hl.goto base lhs.id hbase hlhs).mono (fun _ hb => Fails.lookup hb) fun _ _ ha => ha).bind
  intro found hgoto hfound
  cases found with
  | shift target => exact hnext target (hfound target rfl) hgoto
  | accept =>
    show (c.trace p .accept).stream.Fits p.window 0 (p.window + 1)
    rw [trace_stream]
    exact hfits.mono (Nat.le_refl _) (Nat.le_succ _)
  | reduce other => exact .stray
  | error => exact .stray

/-- A reduction works on the stack alone. -/
theorem reduce_returns (hl : p.tables.Leads A D fails) (h : p.Steady A D token c) {s : StateId}
    {below : List StateId} {rule : RuleId} (hcol : c.stack.column = s :: below)
    (hact : p.tables.action s token.id = .ok (.reduce rule)) :
    Returns (p.Fails fails) (p.Settled A D) (p.reduce rule token c) := by
  obtain ⟨n, hle, hfeasible⟩ := h.covered
  have hs : D s := h.states s (hcol ▸ List.mem_cons_self)
  have hrule := ((hl.action s token.id hs h.asked).of_eq_ok hact).2 rule rfl
  -- The rule may not be there, it may be too long, and the action or the goto may fail.
  cases hinfo : p.tables.rule rule with
  | error b =>
    rw [reduce, hinfo]
    exact .lookup (hrule.of_eq_error hinfo)
  | ok info =>
    by_cases hlen : c.stack.depth ≤ info.length
    · rw [reduce, hinfo, ok_bind]
      dsimp only
      rw [if_pos hlen]
      exact .tooLong
    · obtain ⟨base, rest, hdrop⟩ : ∃ base rest, c.stack.column.drop info.length = base :: rest :=
        List.exists_cons_of_ne_nil (by simp; omega)
      have hbase : D base := h.states base (List.mem_of_mem_drop (hdrop ▸ List.mem_cons_self))
      obtain ⟨args, beneath, heq⟩ := reduce_eq token hinfo hdrop
      rw [heq]
      apply Returns.bind (P := fun _ => True)
      · cases hvalue : p.actions.reduce rule args c.memory with
        | error b => exact .action hvalue
        | ok result => exact trivial
      · rintro ⟨value, memory⟩ _ _
        have hcolumn : (p.reduced rule info memory c).stack.column = base :: rest :=
          (column_reduced (length_lt_of_drop hdrop) memory).trans hdrop
        have hstream : (p.reduced rule info memory c).stream = c.stream := reduced_stream _ _ _ _ _
        refine follow_returns hl hbase (hrule.of_eq_ok hinfo) (hstream ▸ h.fits) ?_
        intro target htarget hgoto
        -- The automaton has made one of its moves, so it can still go on for as many terminals.
        have hnext : Feasible p.tables n (target :: base :: rest)
            (Stream'.cons token.id c.stream.terminals) := by
          rw [hcol] at hfeasible hdrop
          exact feasible_pred hfeasible (.reduce hact hinfo hdrop hgoto)
        refine ⟨?_, ?_, h.asked, ?_, ?_, ?_, n, ?_, ?_⟩
        · intro s' hs'
          rw [push_stack, ParseStack.column_push, hcolumn] at hs'
          rcases List.mem_cons.mp hs' with rfl | hs'
          · exact htarget
          · exact h.states s' (List.mem_of_mem_drop (hdrop ▸ hs'))
        · rw [push_stack, ParseStack.column_push]
          exact List.cons_ne_nil _ _
        · rw [push_stream, hstream]
          exact h.carries
        · rw [push_stream, hstream]
          exact h.passing
        · rw [push_stream, hstream]
          exact h.fits
        · rw [push_stream, hstream]
          exact hle
        · rw [push_stack, ParseStack.column_push, hcolumn, push_stream, hstream]
          exact hnext

/-- After a repair the window that has confirmed it covers all that is held back. -/
theorem repair_returns (hl : p.tables.Leads A D fails) (h : p.Steady A D token c) {s : StateId}
    {below : List StateId} (hcol : c.stack.column = s :: below)
    (hact : p.tables.action s token.id = .ok .error) :
    Returns (Interrupt.Expected (p.Fails fails)) (p.Settled A D) (p.repair fuel token c) := by
  have hkept := h.kept_reported hcol hact
  have hfits : c.stream.Fits p.window 0 (p.window + 1) :=
    h.fits.mono (Nat.le_refl _) (Nat.le_succ _)
  have hresponds : Responds p.tables token.id c.stack.column
      ⟨.refuse .errorAction, s :: below⟩ := by
    rw [hcol]
    exact .error hact
  obtain ⟨top, beneath, hstack, herror⟩ := topDown_of_responds_error hresponds rfl
  unfold repair
  split
  · exact hfits
  · dsimp only
    split
    · exact hfits
    · refine Returns.bind ((Recovery.recover_returns hl hkept h.asked p.one_le_window).mono
        (fun _ he => he.mono fun _ => .lookup) fun _ _ ha => ha) ?_
      rintro r hr ⟨hkept', hmode⟩
      cases r with
      | aborted e c₁ => exact hkept'.fits
      | repaired c₁ =>
        -- A repair is confirmed for the whole window, and so the parse can go on.
        have hwindow : (c.reported token).stream.window = p.window := hkept.fits.window_eq
        have hfeasible : Feasible p.tables (max (c.reported token).stream.window 1)
            c₁.stack.column c₁.stream.terminals := feasible_of_repaired hr hstack herror
        rw [hwindow, Nat.max_eq_left p.one_le_window] at hfeasible
        obtain ⟨q, hread, hq⟩ := settled_readToken (c := c₁.count _) hkept'.states
          hkept'.column_ne hkept'.carries (hmode c₁ rfl) hkept'.fits (Nat.le_refl _)
          (Nat.le_refl _) hfeasible
        dsimp only
        rw [hread]
        exact hq

/-- One step keeps the invariant, or it goes wrong in one of the ways that a parse can. -/
theorem step_returns (hl : p.tables.Leads A D fails) (h : p.Steady A D token c) :
    Returns (Interrupt.Expected (p.Fails fails)) (p.Settled A D) (p.step fuel token c) := by
  obtain ⟨s, below, hcol⟩ := List.exists_cons_of_ne_nil h.column_ne
  have hs : D s := h.states s (hcol ▸ List.mem_cons_self)
  cases hact : p.tables.action s token.id with
  | error b =>
    obtain ⟨entry, htop, rfl⟩ := ParseStack.exists_top hcol
    rw [step, htop]
    simp only [liftM_ok, ok_bind, hact, liftM_error, error_bind]
    exact Fails.lookup ((hl.action _ _ hs h.asked).of_eq_error hact)
  | ok action =>
    obtain ⟨entry, htop, hstep⟩ := step_of_top hcol hact fuel
    rw [hstep]
    cases action with
    | shift target =>
      obtain ⟨q, hread, hq⟩ := h.shift_returns hl hcol hact
      rw [act, hread]
      exact hq
    | reduce rule => exact (h.reduce_returns hl hcol hact).lift
    | accept =>
      show (c.trace p .accept).stream.Fits p.window 0 (p.window + 1)
      rw [trace_stream]
      exact h.fits.mono (Nat.le_refl _) (Nat.le_succ _)
    | error => exact h.repair_returns hl hcol hact

end Steady

/-! ## Runs -/

theorem Settled.step (hl : p.tables.Leads A D fails) (hq : p.Settled A D q) (h : p.Step q q') :
    p.Settled A D q' := by
  cases h with
  | intro hstep => exact (Steady.step_returns hl hq).of_eq_ok hstep

/-- A parse is settled when it has read its first token. -/
theorem settled_start (hl : p.tables.Leads A D fails)
    (hitems : ∀ token, .ok token ∈ scanner.items → A token.id) (hgoal : ∀ marker ∈ goal, A marker)
    (hstart : p.start scanner goal m = .ok q) : p.Settled A D q := by
  obtain ⟨stream, hopen, hread⟩ := bind_eq_ok.mp hstart
  have hsettled : ∃ q, (Configuration.initial stream m).readToken = .ok q ∧ p.Settled A D q := by
    refine settled_readToken ?_ (List.cons_ne_nil _ _)
      (openFor_carries hopen hitems hgoal hl.eof) (openFor_spec hopen).1 (openFor_fits hopen)
      (by omega) (k := 0) (Nat.le_refl _) (feasible_zero _ _ _)
    intro s hs
    rw [List.mem_singleton.mp (show s ∈ [startState] from hs)]
    exact hl.start
  exact holds_of_exists hsettled hread

theorem Reachable.settled (hl : p.tables.Leads A D fails) (hA : ∀ x, A x) (h : p.Reachable q) :
    p.Settled A D q := by
  obtain ⟨scanner, goal, start, hstart, hreach⟩ := h
  induction hreach with
  | refl =>
    obtain ⟨memory, hstart⟩ := hstart.exists_start
    exact settled_start hl (fun _ _ => hA _) (fun _ _ => hA _) hstart
  | tail _ hstep ih => exact ih.step hl hstep

/-- A whole run goes wrong in no other way than its steps. -/
theorem run_returns (hl : p.tables.Leads A D fails) (hq : p.Settled A D q) :
    Returns (Interrupt.Expected (p.Fails fails)) (fun _ => True) (p.run fuel q) := by
  induction fuel generalizing q with
  | zero =>
    cases q with
    | running token c => exact returns_error trivial
    | finished result c => exact trivial
  | succ fuel ih =>
    cases q with
    | running token c =>
      apply (Steady.step_returns hl hq).bind
      intro q' _ hq'
      exact ih hq'
    | finished result c => exact trivial

/-- A parse goes wrong in no other way than its steps, if its buffer can be had. -/
theorem parseFor_returns (hl : p.tables.Leads A D fails) (hopenable : p.Openable)
    (hitems : ∀ token, .ok token ∈ scanner.items → A token.id) (hgoal : ∀ marker ∈ goal, A marker) :
    Returns (Interrupt.Expected (p.Fails fails)) (fun _ => True)
      (p.parseFor fuel scanner m goal) := by
  obtain ⟨q, hstart⟩ := exists_start hopenable scanner goal m
  rw [parseFor_eq, hstart]
  exact run_returns hl (settled_start hl hitems hgoal hstart)

/-! ## Tables that are checked -/

/-- Lookups of all ids but one stay in a table whose arrays have been checked. Those of the
mark of free slots do if and only if no code that they meet is at fault, and then no parse
is ever in an undefined state or asks for an undefined rule: no step reads past the end of
an array, unless an action does. -/
theorem checked_tables_are_closed (t : PackedTables) :
    (∀ x, x ≠ Tables.freeSlot → t.Closed x) ∧
    (t.Closed Tables.freeSlot ↔ ∀ s offset code,
      PackedTables.item t.parts.actionOffsets s = .ok offset ∨
        PackedTables.item t.parts.gotoOffsets s = .ok offset →
      t.entry? offset Tables.freeSlot = some code → t.parts.codeFault? code = none) ∧
    (t.Closed Tables.freeSlot → ∀ (p : Parser σ V), p.tables = t →
      ∀ token c, p.Reachable (.running token c) →
        (∀ s ∈ c.stack.column, s.toNat < t.stateCount) ∧
        ∀ fuel, p.step fuel token c = .error (.breach .indexOutOfBounds) →
          ∃ rule args memory, p.actions.reduce rule args memory = .error .indexOutOfBounds) := by
  refine ⟨fun x hx => t.closed_of_ne hx, t.closed_iff _, ?_⟩
  rintro hfree p rfl token c hreach
  have hl := p.tables.leads_closed
  have hsteady : p.Steady _ _ token c :=
    hreach.settled hl (PackedTables.closed_of_freeSlot hfree)
  refine ⟨hsteady.states, ?_⟩
  intro fuel hstep
  have hfails : p.Fails (fun _ => False) .indexOutOfBounds :=
    (hsteady.step_returns hl).of_eq_error hstep
  cases hfails with
  | lookup hb => exact hb.elim
  | action hb => exact ⟨_, _, _, hb⟩

/-- The table of a single letter is closed, and at a second letter no step reads past its
end. -/
theorem checked_tables_are_closed_oneLetter : ∃ c, oneLetter.Reachable (.running letter c) ∧
    oneLetterTables.Closed Tables.freeSlot ∧ (∀ s ∈ c.stack.column, s.toNat < 2) ∧
    oneLetter.step 10 letter c ≠ .error (.breach .indexOutOfBounds) := by
  obtain ⟨c, hreach, -⟩ := oneLetter_reaches_error
  obtain ⟨-, hiff, hruns⟩ := checked_tables_are_closed (σ := Unit) (V := Unit) oneLetterTables
  have hfree : oneLetterTables.Closed Tables.freeSlot := by
    rw [hiff]
    intro s offset code _ hentry
    obtain ⟨i, howner, -⟩ := PackedTables.entry?_eq_some hentry
    have hmem : Tables.freeSlot ∈ oneLetterTables.parts.owners := Array.mem_of_getElem? howner
    simp [oneLetterTables, Tables.freeSlot] at hmem
  obtain ⟨hstates, hstep⟩ := hruns hfree oneLetter rfl letter c hreach
  refine ⟨c, hreach, hfree, hstates, fun h => ?_⟩
  obtain ⟨rule, args, memory, hb⟩ := hstep 10 h
  cases hb

/-! ## Tables that are built -/

open Tables in
/-- A parse with tables that are built, in which no action fails by itself, goes wrong in two
ways only if its buffer can be had: a rule is too long for the stack, or what it produces can be
neither shifted nor accepted. If the buffer takes more than one allocation can, every parse goes
wrong in a third way, before it begins. Between two steps the stack has an entry at least, and
all its states are defined. -/
theorem built_tables_break_two_contracts {terminalCount symbolCount : UInt16}
    {ds : List Declaration}
    (hbuild : (Builder.ofDeclarations terminalCount symbolCount ds).build = .ok p.tables)
    (hwindow : p.settings.window + 4 ≤ 2 ^ 62) (htotal : p.actions.Total) :
    (p.Openable → ∀ (fuel : Nat) (scanner : Scanner V) (m : σ) (goal : Option SymbolId)
      (b : Breach), p.parseFor fuel scanner m goal = .error (.breach b) →
        (∃ rule length depth, b = .ruleTooLong rule length depth ∧ b.message =
          s!"rule {rule.toNat} pops {length} symbols from a stack of depth {depth}") ∨
        ∃ lhs state found, b = .strayNonterminal lhs state found ∧ b.message =
          s!"cannot shift nonterminal {lhs.toNat} in state {state.toNat}: {found.inspect}") ∧
    (¬p.Openable → ∀ (fuel : Nat) (scanner : Scanner V) (m : σ) (goal : Option SymbolId),
      p.parseFor fuel scanner m goal = .error (.breach .capacityOverflow)) ∧
    ∀ token c, p.Reachable (.running token c) →
      0 < c.stack.depth ∧ ∀ s ∈ c.stack.column, s.toNat < p.tables.stateCount := by
  have hfault : (Builder.ofDeclarations terminalCount symbolCount ds).fault = none :=
    (Builder.build_eq_ok hbuild).2.1
  have hclosed := (Builder.records_ofDeclarations hfault).closed_of_build hbuild
  have hl := p.tables.leads_closed
  refine ⟨?_, ?_, ?_⟩
  · intro hopenable fuel scanner m goal b h
    have hfails : p.Fails (fun _ => False) b :=
      (parseFor_returns hl hopenable (fun _ _ => hclosed _) fun _ _ => hclosed _).of_eq_error h
    cases hfails with
    | lookup hb => exact hb.elim
    | @action rule args memory b hb =>
      obtain ⟨result, hresult⟩ := htotal rule args memory
      rw [hb] at hresult
      cases hresult
    | tooLong => exact .inl ⟨_, _, _, rfl, rfl⟩
    | stray => exact .inr ⟨_, _, _, rfl, rfl⟩
  · intro hopenable fuel scanner m goal
    rw [parseFor_of_not_openable hopenable, TokenStream.openingFault, if_pos (by omega)]
  · intro token c hreach
    have hsteady : p.Steady _ _ token c := hreach.settled hl hclosed
    refine ⟨?_, hsteady.states⟩
    rw [← c.stack.length_column]
    exact List.length_pos_of_ne_nil hsteady.column_ne

/-- A rule of one symbol, by which the start state reduces at the end of the input. -/
def overlong : List Tables.Declaration := [.rule 1 1, .reduce startState eof 0]

def overlongTables : PackedTables where
  parts :=
    { codes := #[-1]
      owners := #[eof]
      actionOffsets := #[0]
      gotoOffsets := #[Tables.unusedOffset]
      defaults := #[]
      rules := #[.pack 1 1]
      terminalCount := 1
      symbolCount := 2
      errorSymbol := none
      compressed := false }
  sound := by decide +kernel

open Tables in
theorem build_overlong : (Builder.ofDeclarations 1 2 overlong).build = .ok overlongTables := by
  have horder : (Builder.ofDeclarations 1 2 overlong).packingOrder =
      (Builder.ofDeclarations 1 2 overlong).rows := List.mergeSort_of_pairwise (by decide +kernel)
  have hparts : (Builder.ofDeclarations 1 2 overlong).parts = overlongTables.parts := by
    unfold Builder.parts
    rw [horder]
    decide +kernel
  rw [Builder.build_of_sound (by decide +kernel) (hparts ▸ overlongTables.sound)]
  congr

def overlongParser : Parser Unit Unit := ⟨overlongTables, .nothing, .standard, 12⟩

/-- An empty input is too short for the rule. -/
theorem built_tables_break_two_contracts_overlong : ∃ b,
    (Tables.Builder.ofDeclarations 1 2 overlong).build = .ok overlongParser.tables ∧
      overlongParser.parseFor 1 (.ofItems []) () none = .error (.breach b) ∧
      b.message = "rule 0 pops 1 symbols from a stack of depth 1" := by
  obtain ⟨b, hparse, hb⟩ :
      ∃ b, overlongParser.parseFor 1 (.ofItems []) () none = .error (.breach b) ∧
        decide (b = .ruleTooLong 0 1 1) = true := ⟨_, rfl, by decide +kernel⟩
  rw [decide_eq_true_eq] at hb
  subst hb
  refine ⟨_, build_overlong, hparse, ?_⟩
  have hopenable : overlongParser.Openable := by decide +kernel
  obtain ⟨hbreaches, -⟩ := built_tables_break_two_contracts (p := overlongParser) build_overlong
    (by decide) fun _ _ m => ⟨(none, m), rfl⟩
  rcases hbreaches hopenable 1 (.ofItems []) () none _ hparse with
    ⟨_, _, _, hb, hmessage⟩ | ⟨_, _, _, hb, -⟩
  · cases hb
    exact hmessage
  · cases hb

/-- A parser with this table and a window whose buffer takes more than one allocation can. -/
def roomlessParser : Parser Unit Unit :=
  { overlongParser with settings := { overlongParser.settings with window := 2 ^ 61 } }

/-- A parse with such a window breaks a contract that is neither of the two. -/
theorem built_tables_need_a_buffer :
    (Tables.Builder.ofDeclarations 1 2 overlong).build = .ok roomlessParser.tables ∧
      roomlessParser.settings.window + 4 ≤ 2 ^ 62 ∧ roomlessParser.actions.Total ∧
      ∃ b, roomlessParser.parse 1 (.ofItems []) () = .error (.breach b) ∧
        b.message = "capacity overflow" ∧
        (∀ rule length depth, b ≠ .ruleTooLong rule length depth) ∧
        ∀ lhs state found, b ≠ .strayNonterminal lhs state found := by
  have hopenable : ¬roomlessParser.Openable := by decide +kernel
  have hparse : roomlessParser.parse 1 (.ofItems []) () = .error (.breach .capacityOverflow) :=
    parseFor_of_not_openable hopenable 1 (.ofItems []) () none
  refine ⟨build_overlong, by decide, fun _ _ m => ⟨(none, m), rfl⟩, _, hparse, rfl, ?_, ?_⟩
  · intro rule length depth h
    cases h
  · intro lhs state found h
    cases h

end Parser

end ShiftReduce
