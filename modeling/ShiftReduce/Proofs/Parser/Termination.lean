import ShiftReduce.Proofs.Fuel
import ShiftReduce.Proofs.Parser.ErrorSpacing

/-!
# Parses end

A table can reduce forever, and then a parse does not end. If from every stack and before
every terminal there are only so many reductions in a row, and if the end of input is not
shifted, then everything ends:

* a simulation, since what is left of its window gets less (`simulate_halts`);
* the widening of an error phrase, since each token that is discarded leaves fewer to come
  (`widenPhrase_halts`);
* a run, by what it has `Left`: syntax errors that may be repaired, then tokens to come, then
  reductions. A repair may make the tokens more, but it takes one of the syntax errors.

The search for a state that shifts the error symbol goes down the stack, and takes no fuel.
-/

namespace ShiftReduce

open Automaton ShiftReduce.Configuration

variable {σ V : Type} {t : PackedTables} {p : Parser σ V} {x : SymbolId} {n : Nat}
  {stack : List StateId} {r : Response} {rule : RuleId} {target : StateId} {sim : Simulator}
  {c c' : Configuration σ V} {token token' : Symbol V}

/-! ## Reductions in a row -/

namespace Automaton

/-- From a stack there are at most `n` reductions in a row before a terminal. -/
def ReducesWithin (t : PackedTables) (x : SymbolId) (n : Nat) (stack : List StateId) : Prop :=
  ∀ rs final, Reduces t x stack rs final → rs.length ≤ n

/-- A reduction is one of those that are possible. -/
theorem ReducesWithin.next (h : ReducesWithin t x n stack) (hr : Responds t x stack r)
    (hreply : r.reply = .reduce rule target) : ∃ k, n = k + 1 ∧ ReducesWithin t x k r.stack := by
  have hone := h _ _ (.head hr hreply .refl)
  rw [List.length_singleton] at hone
  refine ⟨n - 1, by omega, ?_⟩
  intro rs final hreduces
  have hmore := h _ _ (.head hr hreply hreduces)
  rw [List.length_cons] at hmore
  omega

end Automaton

/-- Tables that reduce only finitely often in a row. -/
def PackedTables.FinitelyReducing (t : PackedTables) : Prop :=
  ∀ x stack, stack ≠ [] → ∃ n, ReducesWithin t x n stack

/-- Without a state there is no reduction at all. -/
theorem PackedTables.FinitelyReducing.bound (h : t.FinitelyReducing) (x : SymbolId)
    (stack : List StateId) : ∃ n, ReducesWithin t x n stack := by
  cases stack with
  | nil =>
    refine ⟨0, ?_⟩
    intro rs final hreduces
    cases hreduces with
    | refl => exact Nat.le_refl 0
    | head hr _ _ => cases hr
  | cons s below => exact h x (s :: below) (List.cons_ne_nil _ _)

/-! ## Simulations -/

/-- A simulator is done with a terminal after the reductions that there are. -/
theorem Simulator.advance_halts (h : ReducesWithin t x n sim.column) :
    Halts fun fuel => advance t x fuel sim := by
  induction n using Nat.strongRecOn generalizing sim with
  | ind n ih =>
    apply Halts.succ
    cases hcolumn : sim.column with
    | nil =>
      simp only [advance, top?_states, hcolumn, List.head?_nil]
      exact .ok _
    | cons s below =>
      simp only [advance, top?_states, hcolumn, List.head?_cons]
      refine Halts.lift_bind ?_
      rintro action hact
      cases action with
      | shift next => exact .ok _
      | accept => exact .ok _
      | error => exact .ok _
      | reduce rule =>
        refine Halts.lift_bind ?_
        rintro ⟨found, reduced⟩ hreduced
        cases found with
        | accept => exact .ok _
        | reduce other => exact .ok _
        | error => exact .ok _
        | shift next =>
          obtain ⟨info, hrule, ⟨-, hfound, -⟩ | ⟨base, rest, hdrop, hgoto, hbase, -⟩⟩ :=
            reduce_eq_ok hreduced
          · cases hfound
          · rw [hcolumn] at hdrop h
            obtain ⟨k, rfl, hnext⟩ := h.next (.reduce hact hrule hdrop hgoto) rfl
            refine ih k (Nat.lt_succ_self k) ?_
            rw [column_enter, hbase]
            exact hnext

/-- A simulation comes to an end, from whatever states it starts. -/
theorem Simulation.runTokens_halts (hfinite : t.FinitelyReducing) (more : Nat) (sim : Simulator)
    (stream : TokenStream V) (lexical : List LexicalError) :
    Halts fun fuel => Simulation.runTokens t fuel more sim stream lexical := by
  -- By induction on what is left of the window.
  induction more using Nat.strongRecOn generalizing sim stream lexical with
  | ind more ih =>
    unfold runTokens
    refine Halts.lift_bind ?_
    rintro delivery -
    dsimp only
    cases delivery.result with
    | error fault => exact .ok _
    | ok token =>
      obtain ⟨n, hn⟩ := hfinite.bound token.id sim.column
      refine Halts.bind (Simulator.advance_halts hn) ?_
      rintro ⟨verdict, sim'⟩ -
      cases verdict with
      | accepted => exact .ok _
      | refused => exact .ok _
      | shifted =>
        cases more with
        | zero => exact .ok _
        | succ more => exact ih more (Nat.lt_succ_self more) _ _ _

namespace Recovery

/-- An attempt after another one is made if that has failed. -/
theorem orElse_halts (a : Attempt σ V) {second : Nat → Configuration σ V → Fueled (Attempt σ V)}
    (h : ∀ c, Halts fun fuel => second fuel c) : Halts fun fuel => a.orElse (second fuel) := by
  cases a with
  | settled r => exact .ok _
  | failed c => exact h c

theorem orFinally_halts (a : Attempt σ V) {last : Nat → Configuration σ V → Fueled (Repair σ V)}
    (h : ∀ c, Halts fun fuel => last fuel c) : Halts fun fuel => a.orFinally (last fuel) := by
  cases a with
  | settled r => exact .ok _
  | failed c => exact h c

end Recovery

/-! ## What a parse has left -/

namespace Parser

/-- What a parse has left: syntax errors that may be repaired, tokens to come other than the end
of input, and reductions before the current one. -/
structure Left (p : Parser σ V) (errors tokens reductions : Nat) (token : Symbol V)
    (c : Configuration σ V) : Prop where
  errors : p.settings.maxErrors ≤ c.stats.syntaxErrors + errors
  tokens : Supplies (Stream'.cons token c.stream.pending) tokens
  reductions : ReducesWithin p.tables token.id reductions c.stack.column

/-- A parse that goes on behind a syntax error had not had too many of them. -/
theorem lt_maxErrors_of_repair {fuel : Nat}
    (h : p.repair fuel token c = .ok (.running token' c')) :
    c.stats.syntaxErrors < p.settings.maxErrors := by
  rcases repair_cases h with ⟨_, _, hq⟩ | ⟨_, _, -, hq⟩ | ⟨_, hfew, -, -⟩
  · cases hq
  · cases hq
  · exact hfew

end Parser

section

variable (hfinite : p.tables.FinitelyReducing)

include hfinite

theorem Configuration.simulate_halts (c : Configuration σ V) :
    Halts fun fuel => c.simulate p fuel := by
  unfold simulate
  refine Halts.lift_bind ?_
  rintro stream -
  refine Halts.bind (Simulation.runTokens_halts hfinite _ _ _ _) ?_
  rintro run -
  exact .ok _

/-! ## Recovery -/

namespace Recovery

theorem tryIds_halts (strategy : Strategy) (state : StateId) (notice : Symbol V → Notice V)
    (ids : List SymbolId) (c : Configuration σ V) :
    Halts fun fuel => tryIds p fuel strategy state notice ids c := by
  induction ids generalizing c with
  | nil => exact .ok _
  | cons id ids ih =>
    unfold tryIds
    refine Halts.bind (simulate_halts hfinite _) ?_
    rintro ⟨run, c'⟩ -
    dsimp only
    split
    · exact .ok _
    · exact ih c'
    · exact .ok _

theorem insertMissing_halts (state : StateId) (ids : List SymbolId) (c : Configuration σ V) :
    Halts fun fuel => insertMissing p fuel state ids c := by
  cases ids with
  | nil => exact .ok _
  | cons first rest =>
    unfold insertMissing
    refine Halts.lift_bind ?_
    rintro below -
    refine Halts.lift_bind ?_
    rintro stream -
    refine Halts.bind (tryIds_halts hfinite _ _ _ _ _) ?_
    rintro tried -
    refine orElse_halts tried ?_
    intro c'
    refine Halts.lift_bind ?_
    rintro ⟨removed, stream'⟩ -
    exact .ok _

theorem replaceMisspelled_halts (state : StateId) (ids : List SymbolId) (c : Configuration σ V) :
    Halts fun fuel => replaceMisspelled p fuel state ids c := by
  unfold replaceMisspelled
  split
  · exact .ok _
  · exact .ok _
  · refine Halts.bind (tryIds_halts hfinite _ _ _ _ _) ?_
    rintro tried -
    exact orElse_halts tried fun c' => .ok _

theorem deleteUnexpected_halts (state : StateId) (c : Configuration σ V) :
    Halts fun fuel => deleteUnexpected p fuel state c := by
  unfold deleteUnexpected
  refine Halts.lift_bind ?_
  rintro stream -
  refine Halts.lift_bind ?_
  rintro ⟨token, stream'⟩ -
  refine Halts.bind (simulate_halts hfinite _) ?_
  rintro ⟨run, c'⟩ -
  dsimp only
  split
  · exact .ok _
  · refine Halts.lift_bind ?_
    rintro restored -
    exact .ok _
  · exact .ok _

/-- A phrase is widened by no more tokens than there are to come, since the end of input is not
discarded. -/
theorem widenPhrase_halts (hne : c.stack.topDown ≠ []) (state : StateId) (unwound : Nat) :
    Halts fun fuel => widenPhrase p state unwound fuel c := by
  obtain ⟨m, hm⟩ := c.stream.exists_supplies
  -- By induction on the tokens to come: each round takes one, and none goes past the end of
  -- input.
  induction m using Nat.strongRecOn generalizing c with
  | ind m ih =>
    apply Halts.succ
    unfold widenPhrase
    refine Halts.bind (simulate_halts hfinite c) ?_
    rintro ⟨run, c'⟩ ⟨fuel, hsimulate⟩
    obtain ⟨-, hdecides⟩ := simulate_spec hsimulate hne
    dsimp only
    split
    · exact .ok _
    · refine Halts.lift_bind ?_
      rintro phrase -
      exact .ok _
    · rename_i hrefused
      obtain ⟨hfaces, -⟩ := hdecides false hrefused
      obtain ⟨x, tail, hpending⟩ : ∃ x tail, c.stream.pending = Stream'.cons x tail :=
        ⟨_, _, (Stream'.eta _).symm⟩
      rw [hpending] at hfaces hm
      refine Halts.lift_bind ?_
      rintro ⟨token, stream⟩ hremove
      obtain ⟨rfl, hrest, -⟩ := hfaces.removed hremove
      dsimp only
      split
      · exact .ok _
      · rename_i hother
        refine Halts.lift_bind ?_
        rintro stack hmodify
        obtain ⟨top, below, htop⟩ := List.exists_cons_of_ne_nil hne
        have hstack := ParseStack.modifyTopSymbol_eq_ok hmodify (hfaces.stack ▸ htop)
        obtain ⟨k, rfl, hk⟩ := hm.tail_of_ne (mt Symbol.isEof_iff.mpr hother)
        refine ih k (Nat.lt_succ_self k) ?_ ?_
        · rw [hstack]
          exact List.cons_ne_nil _ _
        · exact hrest ▸ hk

theorem replacePhrase_halts (state : StateId) (c : Configuration σ V) :
    Halts fun fuel => replacePhrase p fuel state c := by
  unfold replacePhrase
  refine Halts.lift_bind ?_
  rintro below -
  dsimp only
  split
  · exact .ok _
  · refine Halts.lift_bind ?_
    rintro found -
    split
    · exact .ok _
    · refine widenPhrase_halts hfinite ?_ _ _
      rw [push_stack, ParseStack.topDown_push]
      exact List.cons_ne_nil _ _

theorem recover_halts (token : Symbol V) (c : Configuration σ V) :
    Halts fun fuel => recover p fuel token c := by
  unfold recover
  split
  · exact .ok _
  · refine Halts.lift_bind ?_
    rintro state -
    refine Halts.lift_bind ?_
    rintro stream -
    refine Halts.lift_bind ?_
    rintro ids -
    refine Halts.bind (insertMissing_halts hfinite _ _ _) ?_
    rintro inserted -
    refine Halts.bind (orElse_halts inserted (replaceMisspelled_halts hfinite state ids)) ?_
    rintro replaced -
    refine Halts.bind (orElse_halts replaced (deleteUnexpected_halts hfinite state)) ?_
    rintro deleted -
    refine Halts.bind (orFinally_halts deleted (replacePhrase_halts hfinite state)) ?_
    rintro repair -
    cases repair with
    | repaired c' => exact .ok _
    | aborted e c' => exact .ok _

end Recovery

/-! ## Steps -/

namespace Parser

theorem repair_halts (token : Symbol V) (c : Configuration σ V) :
    Halts fun fuel => p.repair fuel token c := by
  unfold repair
  split
  · exact .ok _
  · dsimp only
    split
    · exact .ok _
    · refine Halts.bind (Recovery.recover_halts hfinite _ _) ?_
      rintro done -
      cases done with
      | repaired c' => exact .lift _
      | aborted e c' => exact .ok _

theorem step_halts (token : Symbol V) (c : Configuration σ V) :
    Halts fun fuel => p.step fuel token c := by
  unfold step
  refine Halts.lift_bind ?_
  rintro entry -
  refine Halts.lift_bind ?_
  rintro action -
  cases action with
  | shift target => exact .lift _
  | reduce rule => exact .lift _
  | accept => exact .ok _
  | error => exact repair_halts hfinite token c

/-! ## Runs -/

theorem exists_left (token : Symbol V) {c : Configuration σ V} {errors : Nat}
    (h : p.settings.maxErrors ≤ c.stats.syntaxErrors + errors) :
    ∃ tokens reductions, p.Left errors tokens reductions token c := by
  obtain ⟨m, hm⟩ := c.stream.exists_supplies
  obtain ⟨n, hn⟩ := hfinite.bound token.id c.stack.column
  exact ⟨m + 1, n, h, hm.cons token, hn⟩

variable (heof : ∀ s target, p.tables.action s eof ≠ .ok (.shift target))

include heof in
/-- A step that goes on leaves less: a repair leaves fewer syntax errors, a shift fewer tokens,
and a reduction fewer reductions. -/
theorem Left.step {e m n fuel : Nat} (h : p.Left e m n token c)
    (hstep : p.step fuel token c = .ok (.running token' c')) :
    ∃ e' m' n', p.Left e' m' n' token' c' ∧
      (e' < e ∨ e' = e ∧ (m' < m ∨ m' = m ∧ n' < n)) := by
  obtain ⟨r, hmove⟩ := step_cases hstep
  cases hmove with
  | shift hr hreply hread =>
    have hreads := readToken_spec hread
    have hpending := hreads.pending_eq token' c' rfl
    have hstats : c'.stats = _ := hreads.stats_eq
    rw [shifted_stream] at hpending
    -- The token that is shifted is not the end of input.
    have hne : token.id ≠ eof := by
      intro hid
      generalize c.stack.column = column at hr
      cases hr with
      | @shift s _ _ hact => exact heof s _ (hid ▸ hact)
      | _ => cases hreply
    obtain ⟨k, rfl, hk⟩ := h.tokens.tail_of_ne hne
    obtain ⟨n', hn'⟩ := hfinite.bound token'.id c'.stack.column
    refine ⟨e, k, n', ⟨?_, hpending ▸ hk, hn'⟩, .inr ⟨rfl, .inl (Nat.lt_succ_self k)⟩⟩
    rw [hstats, syntaxErrors_shifted]
    exact h.errors
  | reduce hr hreply hrule hlhs hlen =>
    obtain ⟨k, rfl, hk⟩ := h.reductions.next hr hreply
    refine ⟨e, m, k, ⟨?_, ?_, ?_⟩, .inr ⟨rfl, .inr ⟨rfl, Nat.lt_succ_self k⟩⟩⟩
    · rw [push_syntaxErrors, syntaxErrors_reduced]
      exact h.errors
    · rw [push_stream, reduced_stream]
      exact h.tokens
    · rw [push_stack, ParseStack.column_push, column_reduced hlen,
        ← hr.kept_of_reduce hreply hrule]
      rw [Response.stack, hreply] at hk
      exact hk
  | repair hr hreply hrepair =>
    have hfew := lt_maxErrors_of_repair hrepair
    obtain ⟨hcount, -⟩ := repair_counts hrepair
    rw [Progress.configuration_running] at hcount
    have herrors := h.errors
    have hbound : p.settings.maxErrors ≤ c'.stats.syntaxErrors + (e - 1) := by omega
    obtain ⟨m', n', hleft⟩ := exists_left hfinite token' hbound
    exact ⟨e - 1, m', n', hleft, .inl (by omega)⟩

include heof in
/-- A run comes to an end, by what it has left. -/
theorem Left.run_halts {e m n : Nat} {token : Symbol V} {c : Configuration σ V}
    (h : p.Left e m n token c) : Halts fun fuel => p.run fuel (.running token c) := by
  apply Halts.succ
  refine Halts.bind (step_halts hfinite token c) ?_
  rintro q ⟨fuel, hstep⟩
  cases q with
  | finished result c' =>
    simp only [run]
    exact .ok _
  | running token' c' =>
    obtain ⟨e', m', n', hleft, hless⟩ := h.step hfinite heof hstep
    exact hleft.run_halts
termination_by (e, m, n)
decreasing_by
  rcases hless with he | ⟨rfl, hm | ⟨rfl, hn⟩⟩
  · exact .left _ _ he
  · exact .right _ (.left _ _ hm)
  · exact .right _ (.right _ hn)

include heof in
theorem run_halts (q : Progress σ V) : Halts fun fuel => p.run fuel q := by
  cases q with
  | finished result c =>
    simp only [run]
    exact .ok _
  | running token c =>
    obtain ⟨m, n, hleft⟩ := exists_left hfinite token (c := c) (Nat.le_add_left _ _)
    exact hleft.run_halts hfinite heof

end Parser

end

namespace Parser

/-- A parse that has a buffer breaks no contract but those of its rules, its gotos and its
actions. A lookup fails only in a table that is not closed, if it is asked for the mark of free
slots. -/
theorem fails_of_parseFor {fuel : Nat} {scanner : Scanner V} {memory : σ}
    {goal : Option SymbolId} {b : Breach} (hopenable : p.Openable)
    (h : p.parseFor fuel scanner memory goal = .error (.breach b)) :
    p.Fails (fun b => b = .indexOutOfBounds ∧ ¬p.tables.Closed Tables.freeSlot ∧
      (goal = some Tables.freeSlot ∨
        ∃ token, .ok token ∈ scanner.items ∧ token.id = Tables.freeSlot)) b := by
  have hfails : ∀ {A D fails}, p.tables.Leads A D fails →
      (∀ token, .ok token ∈ scanner.items → A token.id) → (∀ marker ∈ goal, A marker) →
      p.Fails fails b :=
    fun hl hitems hgoal => (parseFor_returns hl hopenable hitems hgoal).of_eq_error h
  by_cases hfree : p.tables.Closed Tables.freeSlot
  · have hclosed := PackedTables.closed_of_freeSlot hfree
    exact (hfails p.tables.leads_closed (fun _ _ => hclosed _) fun _ _ => hclosed _).mono
      fun _ hfalse => hfalse.elim
  · by_cases hasked : goal = some Tables.freeSlot ∨
        ∃ token, .ok token ∈ scanner.items ∧ token.id = Tables.freeSlot
    · exact (hfails p.tables.leads_anywhere (fun _ _ => trivial) fun _ _ => trivial).mono
        fun _ hb => ⟨hb, hfree, hasked⟩
    · -- The mark is not asked for, and the table is closed for all other symbols.
      push Not at hasked
      refine (hfails p.tables.leads_closed ?_ ?_).mono fun _ hfalse => hfalse.elim
      · intro token hmem
        exact p.tables.closed_of_ne (hasked.2 token hmem)
      · rintro marker rfl
        exact p.tables.closed_of_ne fun hmarker => hasked.1 (congrArg some hmarker)

/-- If no state shifts the end of input, and from every stack there are only so many reductions
in a row before a terminal, then every parse ends: with enough fuel it always comes to the same
end. It returns, or it breaks a contract of its rules, its gotos or its actions, with two
exceptions: it looks up the mark of free slots in a table that is not closed for it, or there is
no buffer for its window, and then the parse is over before it begins. Every simulation ends, also
from states that no parse is in, and so does the widening of every error phrase. -/
theorem parses_end (hfinite : p.tables.FinitelyReducing)
    (heof : ∀ s target, p.tables.action s eof ≠ .ok (.shift target)) (scanner : Scanner V)
    (memory : σ) :
    (∀ goal, Halts fun fuel => p.parseFor fuel scanner memory goal) ∧
    (p.Openable → ∀ fuel goal b, p.parseFor fuel scanner memory goal = .error (.breach b) →
      p.Fails (fun b => b = .indexOutOfBounds ∧ ¬p.tables.Closed Tables.freeSlot ∧
        (goal = some Tables.freeSlot ∨
          ∃ token, .ok token ∈ scanner.items ∧ token.id = Tables.freeSlot)) b) ∧
    (¬p.Openable → ∀ fuel goal, p.parseFor fuel scanner memory goal =
      .error (.breach (TokenStream.openingFault p.settings.window))) ∧
    (∀ base (stream : TokenStream V), Halts fun fuel =>
      Simulation.run p.tables fuel base stream) ∧
    ∀ c : Configuration σ V, 0 < c.stack.depth → ∀ state unwound,
      Halts fun fuel => Recovery.widenPhrase p state unwound fuel c := by
  refine ⟨?_, fun hopenable fuel goal b => fails_of_parseFor hopenable, ?_, ?_, ?_⟩
  · intro goal
    simp only [parseFor_eq]
    refine Halts.lift_bind ?_
    rintro q -
    exact run_halts hfinite heof q
  · intro hopenable fuel goal
    exact parseFor_of_not_openable hopenable fuel scanner memory goal
  · intro base stream
    exact Simulation.runTokens_halts hfinite _ _ _ _
  · intro c hdepth state unwound
    refine Recovery.widenPhrase_halts hfinite ?_ state unwound
    rw [← ParseStack.length_column] at hdepth
    intro hnil
    rw [ParseStack.column, hnil] at hdepth
    exact Nat.lt_irrefl 0 hdepth

/-- In the table of a single letter a reduction is the last move. -/
theorem oneLetter_reducesWithin (x : SymbolId) (stack : List StateId) :
    ReducesWithin oneLetterTables x 0 stack := by
  have hrule : ∀ {rule info}, oneLetterTables.rule rule = .ok info → info.lhs = 2 := by
    intro rule info h
    have hlt : rule.toNat < 1 := PackedTables.lt_of_item h
    obtain rfl : rule = 0 := UInt16.toNat_inj.mp (by simpa using hlt)
    cases h
    rfl
  have hgoto : ∀ {base target}, oneLetterTables.goto base 2 ≠ .ok (.shift target) := by
    intro base target h
    rcases oneLetter_states (PackedTables.lt_of_goto h) with rfl | rfl
    · rw [show oneLetterTables.goto 0 2 = .ok .accept from rfl] at h
      cases h
    · rw [show oneLetterTables.goto 1 2 = .ok .error from rfl] at h
      cases h
  intro rs final h
  cases h with
  | refl => exact Nat.le_refl 0
  | head hr hreply _ =>
    cases hr with
    | reduce _ hinfo _ htarget => exact absurd (hrule hinfo ▸ htarget) hgoto
    | _ => cases hreply

theorem oneLetter_finitelyReducing : oneLetterTables.FinitelyReducing :=
  fun x stack _ => ⟨0, oneLetter_reducesWithin x stack⟩

/-- A parse of two letters ends, with one repair on the way. -/
theorem parses_end_oneLetter :
    (∀ x stack, stack ≠ [] → ∃ n, ReducesWithin oneLetterTables x n stack) ∧
      Halts fun fuel => oneLetter.parse fuel (.ofItems [.ok letter, .ok letter]) () :=
  ⟨oneLetter_finitelyReducing,
    (parses_end (p := oneLetter) oneLetter_finitelyReducing oneLetter_shifts_no_eof _ _).1 none⟩

/-- A table without rules never reduces. -/
theorem strayCode_finitelyReducing : PackedTables.strayCode.FinitelyReducing := by
  intro x stack _
  refine ⟨0, ?_⟩
  intro rs final h
  cases h with
  | refl => exact Nat.le_refl 0
  | head hr hreply _ =>
    cases hr with
    | reduce _ hinfo _ _ => exact absurd (PackedTables.lt_of_item hinfo) (Nat.not_lt_zero _)
    | _ => cases hreply

theorem strayCode_shifts_no_eof (s target : StateId) :
    PackedTables.strayCode.action s eof ≠ .ok (.shift target) := by
  intro h
  have hlt : s.toNat < 1 := PackedTables.lt_of_action h
  obtain rfl : s = 0 := UInt16.toNat_inj.mp (by simpa using hlt)
  rw [show PackedTables.strayCode.action 0 eof = .ok .error from rfl] at h
  cases h

def strayParser : Parser Unit Unit := ⟨PackedTables.strayCode, .nothing, .standard, 12⟩

/-- A letter parser with a window that no buffer is made for. -/
def boundlessLetter : Parser Unit Unit :=
  { oneLetter with settings := { oneLetter.settings with window := 2 ^ 64 - 1 } }

/-- Neither parse returns, and neither breaks a contract of a rule, of a goto or of an action: the
one asks for the mark of free slots, and the other has no buffer. -/
theorem parses_need_closed_tables_and_a_buffer :
    strayParser.tables.FinitelyReducing ∧
      (∀ s target, strayParser.tables.action s eof ≠ .ok (.shift target)) ∧
      strayParser.parse 10 (.ofItems [.ok (.empty Tables.freeSlot .zero .zero)]) () =
        .error (.breach .indexOutOfBounds) ∧
      boundlessLetter.tables.FinitelyReducing ∧
      (∀ s target, boundlessLetter.tables.action s eof ≠ .ok (.shift target)) ∧
      ∀ fuel, boundlessLetter.parse fuel (.ofItems [.ok letter]) () =
        .error (.breach .addOverflow) := by
  have hopenable : ¬boundlessLetter.Openable := by decide +kernel
  refine ⟨strayCode_finitelyReducing, strayCode_shifts_no_eof, rfl, oneLetter_finitelyReducing,
    oneLetter_shifts_no_eof, ?_⟩
  intro fuel
  exact parseFor_of_not_openable hopenable fuel (.ofItems [.ok letter]) () none

end Parser

end ShiftReduce
