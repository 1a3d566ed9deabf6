import ShiftReduce.Proofs.Automaton
import ShiftReduce.Proofs.Parser.Fields

/-!
# Steps of the parser as moves of the automaton

The states on the stack and the id of the current token determine a move of the
automaton, and the parser makes that move: it shifts, it reduces and follows the
goto, it accepts, it breaks a contract where the automaton refuses a rule, and
it repairs where the automaton meets the error action.

* `step_of_shift` … `step_of_stray`: what a step is, one lemma for each move.
* `step_cases`: what a step can be, if it is within the contract.
-/

namespace ShiftReduce

open Automaton

variable {σ V : Type}

/-- Actions that return for all arguments. -/
def Actions.Total (actions : Actions σ V) : Prop :=
  ∀ rule args memory, ∃ result, actions.reduce rule args memory = .ok result

namespace ParseStack

variable {s : ParseStack V} {state : StateId} {below : List StateId}

theorem exists_top (h : s.column = state :: below) :
    ∃ entry, s.top = .ok entry ∧ entry.state = state := by
  rw [column, List.map_eq_cons_iff] at h
  obtain ⟨entry, rest, htop, hstate, _⟩ := h
  exact ⟨entry, top_eq_ok.mpr (by rw [htop]; rfl), hstate⟩

theorem column_of_top {entry : Entry V} (h : s.top = .ok entry) :
    ∃ below, s.column = entry.state :: below := by
  rw [top_eq_ok, List.head?_eq_some_iff] at h
  obtain ⟨rest, hrest⟩ := h
  exact ⟨rest.map Entry.state, by rw [column, hrest, List.map_cons]⟩

theorem exists_symbol {index : Nat} (h : index < s.depth) : ∃ x, s.symbol index = .ok x := by
  unfold symbol
  rw [show s.entries.get? index = some s.entries.items[index] from Array.getElem?_eq_getElem h]
  exact ⟨_, rfl⟩

theorem exists_symbolsFrom {start : Nat} (h : start ≤ s.depth) :
    ∃ xs, s.symbolsFrom start = .ok xs := by
  rw [symbolsFrom, Stack.sliceFrom, if_pos (show start ≤ s.entries.items.size from h)]
  exact ⟨_, rfl⟩

end ParseStack

namespace Parser

variable {p : Parser σ V} {fuel : Nat} {c c' : Configuration σ V} {token : Symbol V}
  {q : Progress σ V} {r : Response} {rule : RuleId} {info : Rule} {target base : StateId}
  {rest : List StateId} {goto : Option RuleId}

/-- A configuration after a shift, before the next token is read. -/
def shifted (p : Parser σ V) (target : StateId) (token : Symbol V) (c : Configuration σ V) :
    Configuration σ V :=
  ((c.trace p (.shift target token.id)).count
    fun stats => { stats with tokensShifted := stats.tokensShifted + 1 }).push target token

/-- A configuration after a right-hand side has been taken off. -/
def reduced (p : Parser σ V) (rule : RuleId) (info : Rule) (memory : σ) (c : Configuration σ V) :
    Configuration σ V :=
  ({ c with stack := c.stack.truncate (c.stack.depth - info.length), memory }.count
    fun stats => { stats with reductions := stats.reductions + 1 }).trace p
      (.reduce rule info.lhs info.length)

@[simp] theorem shifted_stream (p : Parser σ V) (target : StateId) (token : Symbol V)
    (c : Configuration σ V) : (p.shifted target token c).stream = c.stream :=
  Configuration.trace_stream _ _ _

@[simp] theorem repairs_shifted (p : Parser σ V) (target : StateId) (token : Symbol V)
    (c : Configuration σ V) : (p.shifted target token c).repairs = c.repairs :=
  Configuration.repairs_trace _ _ _

@[simp] theorem tokensShifted_shifted (p : Parser σ V) (target : StateId) (token : Symbol V)
    (c : Configuration σ V) :
    (p.shifted target token c).stats.tokensShifted = c.stats.tokensShifted + 1 := by
  simp [shifted]

@[simp] theorem reduced_stream (p : Parser σ V) (rule : RuleId) (info : Rule) (memory : σ)
    (c : Configuration σ V) : (p.reduced rule info memory c).stream = c.stream :=
  Configuration.trace_stream _ _ _

@[simp] theorem repairs_reduced (p : Parser σ V) (rule : RuleId) (info : Rule) (memory : σ)
    (c : Configuration σ V) : (p.reduced rule info memory c).repairs = c.repairs :=
  Configuration.repairs_trace _ _ _

@[simp] theorem tokensShifted_reduced (p : Parser σ V) (rule : RuleId) (info : Rule) (memory : σ)
    (c : Configuration σ V) :
    (p.reduced rule info memory c).stats.tokensShifted = c.stats.tokensShifted := by
  simp [reduced]

@[simp] theorem syntaxErrors_shifted (p : Parser σ V) (target : StateId) (token : Symbol V)
    (c : Configuration σ V) :
    (p.shifted target token c).stats.syntaxErrors = c.stats.syntaxErrors := by
  simp [shifted]

@[simp] theorem syntaxErrors_reduced (p : Parser σ V) (rule : RuleId) (info : Rule) (memory : σ)
    (c : Configuration σ V) :
    (p.reduced rule info memory c).stats.syntaxErrors = c.stats.syntaxErrors := by
  simp [reduced]

/-- Follows the goto of a left-hand side from the state that it stands on. -/
def follow (p : Parser σ V) (base : StateId) (token lhs : Symbol V) (c : Configuration σ V) :
    Checked (Progress σ V) := do
  match ← p.tables.goto base lhs.id with
  | .shift next => return .running token (c.push next lhs)
  | .accept => return .finished (.ok lhs.value) (c.trace p .accept)
  | found => throw (.strayNonterminal lhs.id base found)

/-- The symbol that a reduction produces. -/
def produced (info : Rule) (args : Args V) (below : Symbol V) (value : Option V) : Symbol V :=
  ⟨info.lhs, args.start?.getD below.stop, args.stop?.getD below.stop, value⟩

/-- What a step does by an action of the top entry. -/
def act (p : Parser σ V) (fuel : Nat) (entry : Entry V) (token : Symbol V)
    (c : Configuration σ V) : Action → Fueled (Progress σ V)
  | .shift target => liftM (p.shifted target token c).readToken
  | .reduce rule => liftM (p.reduce rule token c)
  | .accept => .ok (.finished (.ok entry.symbol.value) (c.trace p .accept))
  | .error => p.repair fuel token c

/-! ## What a step is -/

theorem step_eq_act {entry : Entry V} {action : Action} (htop : c.stack.top = .ok entry)
    (hact : p.tables.action entry.state token.id = .ok action) (fuel : Nat) :
    p.step fuel token c = p.act fuel entry token c action := by
  rw [step, htop]
  simp only [liftM_ok, ok_bind, hact]
  cases action <;> rfl

theorem step_of_top {s : StateId} {below : List StateId} {action : Action}
    (hcol : c.stack.column = s :: below) (hact : p.tables.action s token.id = .ok action)
    (fuel : Nat) :
    ∃ entry, c.stack.top = .ok entry ∧ p.step fuel token c = p.act fuel entry token c action := by
  obtain ⟨entry, htop, rfl⟩ := ParseStack.exists_top hcol
  exact ⟨entry, htop, step_eq_act htop hact fuel⟩

theorem length_lt_of_drop (hdrop : c.stack.column.drop info.length = base :: rest) :
    info.length < c.stack.depth := by
  have := congrArg List.length hdrop
  rw [List.length_drop, ParseStack.length_column, List.length_cons] at this
  omega

theorem column_reduced (h : info.length < c.stack.depth) (memory : σ) :
    (p.reduced rule info memory c).stack.column = c.stack.column.drop info.length := by
  rw [reduced, Configuration.trace_stack, Configuration.count_stack,
    ParseStack.column_truncate, Nat.sub_sub_self (Nat.le_of_lt h)]

/-- A reduction asks the actions for a value, and then follows the goto of what is
left of the stack. -/
theorem reduce_eq (token : Symbol V) (hrule : p.tables.rule rule = .ok info)
    (hdrop : c.stack.column.drop info.length = base :: rest) :
    ∃ args below, p.reduce rule token c =
      p.actions.reduce rule args c.memory >>= fun (value, memory) =>
        p.follow base token (produced info args below value) (p.reduced rule info memory c) := by
  have hlen := length_lt_of_drop hdrop
  obtain ⟨below, hbelow⟩ : ∃ x, c.stack.symbol (c.stack.depth - info.length - 1) = .ok x :=
    ParseStack.exists_symbol (by omega)
  obtain ⟨symbols, hsymbols⟩ : ∃ xs, c.stack.symbolsFrom (c.stack.depth - info.length) = .ok xs :=
    ParseStack.exists_symbolsFrom (by omega)
  refine ⟨⟨symbols, c.stack.depth - info.length - 1⟩, below, ?_⟩
  rw [reduce, hrule, ok_bind]
  dsimp only
  rw [if_neg (Nat.not_le.mpr hlen), hbelow, ok_bind, hsymbols, ok_bind]
  congr 1
  funext ⟨value, memory⟩
  have htop : (p.reduced rule info memory c).stack.topState = .ok base := by
    rw [ParseStack.topState_eq_ok, column_reduced hlen, hdrop]
    rfl
  show ((p.reduced rule info memory c).stack.topState >>= _) = _
  rw [htop]
  rfl

theorem step_of_shift (hr : Responds p.tables token.id c.stack.column r)
    (hreply : r.reply = .shift target) (fuel : Nat) :
    p.step fuel token c = liftM (p.shifted target token c).readToken ∧
      (p.shifted target token c).stack.column = r.stack := by
  generalize hcol : c.stack.column = column at hr
  cases hr with
  | shift hact =>
    cases hreply
    obtain ⟨entry, _, hstep⟩ := step_of_top hcol hact fuel
    refine ⟨hstep, ?_⟩
    rw [shifted, Configuration.push_stack, ParseStack.column_push, Configuration.count_stack,
      Configuration.trace_stack, hcol]
    rfl
  | _ => cases hreply

/-- Following a goto that shifts. -/
theorem follow_of_shift (token lhs : Symbol V)
    (hgoto : p.tables.goto base lhs.id = .ok (.shift target)) :
    p.follow base token lhs c = .ok (.running token (c.push target lhs)) := by
  rw [follow, hgoto]
  rfl

/-- Following a goto that accepts. -/
theorem follow_of_accept (token lhs : Symbol V) (hgoto : p.tables.goto base lhs.id = .ok .accept) :
    p.follow base token lhs c = .ok (.finished (.ok lhs.value) (c.trace p .accept)) := by
  rw [follow, hgoto]
  rfl

/-- Following a goto that does neither. -/
theorem follow_of_stray {found : Action} (token lhs : Symbol V)
    (hgoto : p.tables.goto base lhs.id = .ok found) (hshift : ∀ next, found ≠ .shift next)
    (haccept : found ≠ .accept) :
    p.follow base token lhs c = .error (.strayNonterminal lhs.id base found) := by
  rw [follow, hgoto]
  cases found with
  | shift next => exact absurd rfl (hshift next)
  | accept => exact absurd rfl haccept
  | reduce other => rfl
  | error => rfl

/-- Where the stack is deep enough, a reduction comes to its goto. -/
theorem step_of_reduction {s : StateId} {below : List StateId}
    (hcol : c.stack.column = s :: below) (hact : p.tables.action s token.id = .ok (.reduce rule))
    (hrule : p.tables.rule rule = .ok info) (hdrop : c.stack.column.drop info.length = base :: rest)
    (htotal : p.actions.Total) :
    ∃ lhs memory, lhs.id = info.lhs ∧
      ∀ fuel, p.step fuel token c =
        liftM (p.follow base token lhs (p.reduced rule info memory c)) := by
  obtain ⟨args, beneath, hreduce⟩ := reduce_eq token hrule hdrop
  obtain ⟨⟨value, memory⟩, hvalue⟩ := htotal rule args c.memory
  refine ⟨produced info args beneath value, memory, rfl, ?_⟩
  intro fuel
  obtain ⟨entry, -, hstep⟩ := step_of_top hcol hact fuel
  rw [hstep, act, hreduce, hvalue, ok_bind]

theorem step_of_reduce (hr : Responds p.tables token.id c.stack.column r)
    (hreply : r.reply = .reduce rule target) (htotal : p.actions.Total) :
    ∃ info memory lhs, (∀ fuel, p.step fuel token c =
        .ok (.running token ((p.reduced rule info memory c).push target lhs))) ∧
      ((p.reduced rule info memory c).push target lhs).stack.column = r.stack := by
  generalize hcol : c.stack.column = column at hr
  cases hr with
  | @reduce _ _ _ _ _ _ info hact hrule hdrop hgoto =>
    cases hreply
    rw [← hcol] at hdrop
    obtain ⟨lhs, memory, hlhs, hstep⟩ := step_of_reduction hcol hact hrule hdrop htotal
    rw [← hlhs] at hgoto
    refine ⟨info, memory, lhs, ?_, ?_⟩
    · intro fuel
      rw [hstep, follow_of_shift token lhs hgoto]
      rfl
    · rw [Configuration.push_stack, ParseStack.column_push,
        column_reduced (length_lt_of_drop hdrop), hdrop]
      rfl
  | _ => cases hreply

/-- The parser accepts where the automaton does. -/
theorem step_of_accept (hr : Responds p.tables token.id c.stack.column r)
    (hreply : r.reply = .accept goto) (htotal : p.actions.Total) :
    ∃ value c', (∀ fuel, p.step fuel token c = .ok (.finished (.ok value) c')) ∧
      c'.stack.column = r.stack := by
  generalize hcol : c.stack.column = column at hr
  cases hr with
  | accept hact =>
    obtain ⟨entry, htop, _⟩ := step_of_top hcol hact 0
    refine ⟨entry.symbol.value, c.trace p .accept, ?_, ?_⟩
    · intro fuel
      obtain ⟨_, htop', hstep⟩ := step_of_top hcol hact fuel
      rw [htop] at htop'
      cases htop'
      exact hstep
    · rw [Configuration.trace_stack, hcol]
      rfl
  | @gotoAccept _ _ _ _ rule info hact hrule hdrop hgoto =>
    rw [← hcol] at hdrop
    obtain ⟨lhs, memory, hlhs, hstep⟩ := step_of_reduction hcol hact hrule hdrop htotal
    rw [← hlhs] at hgoto
    refine ⟨lhs.value, (p.reduced rule info memory c).trace p .accept, ?_, ?_⟩
    · intro fuel
      rw [hstep, follow_of_accept token lhs hgoto]
      rfl
    · rw [Configuration.trace_stack, column_reduced (length_lt_of_drop hdrop), hdrop]
      rfl
  | _ => cases hreply

/-- A rule that is too long for the stack breaks the contract. -/
theorem step_of_tooLong {length : Nat} (hr : Responds p.tables token.id c.stack.column r)
    (hreply : r.reply = .refuse (.ruleTooLong rule length)) (fuel : Nat) :
    p.step fuel token c = .error (.breach (.ruleTooLong rule length c.stack.depth)) := by
  generalize hcol : c.stack.column = column at hr
  cases hr with
  | @tooLong _ _ _ info hact hrule hlong =>
    cases hreply
    obtain ⟨entry, _, hstep⟩ := step_of_top hcol hact fuel
    have hdepth : c.stack.depth ≤ info.length := by
      rw [← ParseStack.length_column, hcol]
      exact hlong
    rw [hstep, act, reduce, hrule, ok_bind]
    dsimp only
    rw [if_pos hdepth]
    rfl
  | _ => cases hreply

/-- A goto that neither shifts nor accepts breaks the contract. -/
theorem step_of_stray {lhs : SymbolId} {found : Action}
    (hr : Responds p.tables token.id c.stack.column r)
    (hreply : r.reply = .refuse (.strayNonterminal lhs base found)) (htotal : p.actions.Total)
    (fuel : Nat) : p.step fuel token c = .error (.breach (.strayNonterminal lhs base found)) := by
  generalize hcol : c.stack.column = column at hr
  cases hr with
  | stray hact hrule hdrop hgoto hshift haccept =>
    cases hreply
    rw [← hcol] at hdrop
    obtain ⟨lhs, memory, hlhs, hstep⟩ := step_of_reduction hcol hact hrule hdrop htotal
    rw [← hlhs] at hgoto
    rw [hstep, follow_of_stray token lhs hgoto hshift haccept, hlhs]
    rfl
  | _ => cases hreply

/-! ## What a step can be -/

/-- A step, by the move of the automaton. -/
inductive Move (p : Parser σ V) (fuel : Nat) (token : Symbol V) (c : Configuration σ V) :
    Response → Progress σ V → Prop
  | shift {r : Response} {target : StateId} {q : Progress σ V} :
      Responds p.tables token.id c.stack.column r → r.reply = .shift target →
      (p.shifted target token c).readToken = .ok q → Move p fuel token c r q
  | reduce {r : Response} {rule : RuleId} {target : StateId} {info : Rule} {memory : σ}
      {lhs : Symbol V} :
      Responds p.tables token.id c.stack.column r → r.reply = .reduce rule target →
      p.tables.rule rule = .ok info → lhs.id = info.lhs → info.length < c.stack.depth →
      Move p fuel token c r (.running token ((p.reduced rule info memory c).push target lhs))
  | accept {r : Response} {entry : Entry V} :
      Responds p.tables token.id c.stack.column r → r.reply = .accept none →
      c.stack.top = .ok entry →
      Move p fuel token c r (.finished (.ok entry.symbol.value) (c.trace p .accept))
  | gotoAccept {r : Response} {rule : RuleId} {info : Rule} {memory : σ} {value : Option V} :
      Responds p.tables token.id c.stack.column r → r.reply = .accept (some rule) →
      p.tables.rule rule = .ok info → info.length < c.stack.depth →
      Move p fuel token c r
        (.finished (.ok value) ((p.reduced rule info memory c).trace p .accept))
  | repair {r : Response} {q : Progress σ V} :
      Responds p.tables token.id c.stack.column r → r.reply = .refuse .errorAction →
      p.repair fuel token c = .ok q → Move p fuel token c r q

/-- A step within the contract has an action to do. -/
theorem exists_act (h : p.step fuel token c = .ok q) :
    ∃ entry action, c.stack.top = .ok entry ∧
      p.tables.action entry.state token.id = .ok action ∧
      p.act fuel entry token c action = .ok q := by
  obtain ⟨entry, htop, hrest⟩ := bind_eq_ok.mp h
  rw [liftM_eq_ok] at htop
  obtain ⟨action, hact, -⟩ := bind_eq_ok.mp hrest
  rw [liftM_eq_ok] at hact
  exact ⟨entry, action, htop, hact, step_eq_act htop hact fuel ▸ h⟩

/-- A step within the contract is a move. -/
theorem step_cases (h : p.step fuel token c = .ok q) : ∃ r, Move p fuel token c r q := by
  obtain ⟨entry, action, htop, hact, hstep⟩ := exists_act h
  obtain ⟨below, hcol⟩ := ParseStack.column_of_top htop
  have hresponds : ∀ r, Responds p.tables token.id (entry.state :: below) r →
      Responds p.tables token.id c.stack.column r := fun r hr => hcol ▸ hr
  cases action with
  | shift target =>
    exact ⟨_, .shift (hresponds _ (.shift hact)) rfl (liftM_eq_ok.mp hstep)⟩
  | accept =>
    cases hstep
    exact ⟨_, .accept (hresponds _ (.accept hact)) rfl htop⟩
  | error => exact ⟨_, .repair (hresponds _ (.error hact)) rfl hstep⟩
  | reduce rule =>
    have hred := liftM_eq_ok.mp hstep
    obtain ⟨info, hrule, hgo⟩ := bind_eq_ok.mp hred
    dsimp only at hgo
    split at hgo
    · cases hgo
    · rename_i hlen
      rw [Nat.not_le] at hlen
      -- An entry is left below the right-hand side, and its goto decides.
      cases hdrop : c.stack.column.drop info.length with
      | nil =>
        rw [List.drop_eq_nil_iff, ParseStack.length_column] at hdrop
        omega
      | cons base rest =>
        obtain ⟨args, symbol, heq⟩ := reduce_eq token hrule hdrop
        rw [heq] at hred
        obtain ⟨⟨value, memory⟩, -, hfollow⟩ := bind_eq_ok.mp hred
        obtain ⟨found, hgoto, hfound⟩ := bind_eq_ok.mp hfollow
        rw [hcol] at hdrop
        cases found with
        | shift target =>
          cases hfound
          exact ⟨_, .reduce (hresponds _ (.reduce hact hrule hdrop hgoto)) rfl hrule rfl hlen⟩
        | accept =>
          cases hfound
          exact ⟨_, .gotoAccept (hresponds _ (.gotoAccept hact hrule hdrop hgoto)) rfl hrule hlen⟩
        | reduce other => cases hfound
        | error => cases hfound

end Parser

end ShiftReduce
