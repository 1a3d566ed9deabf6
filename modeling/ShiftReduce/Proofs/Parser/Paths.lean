import Mathlib.Data.List.Chain
import ShiftReduce.Proofs.Parser.Invariants
import ShiftReduce.Proofs.Replay
import ShiftReduce.Proofs.Tables.Closure

/-!
# Stacks are paths

An entry is pushed only if the table leads from the state on top to its state, by its symbol.
So the stack is a path of the table from the start state, and since no code enters the start
state, this state is at the bottom alone. Taking entries off leaves a path, and of the symbols
on the stack only the end of one is ever changed.

A simulator keeps states only. What is left of the states that it was given is followed by
those that it has entered itself, and these go on by the terminals that it has read and the
rules that it has reduced by.

* `IsPath`, with `IsPath.push` and `IsPath.suffix`.
* `stable_isPath`: all acts of a parse keep the path.
* `Simulation.Course`: the moments of a simulation, and `Course.extends` what it has entered.
* `Simulation.Ends`: how a simulation that returns has ended, by `Course.proceeds`.
* `stack_is_path`: the path at every moment.
-/

namespace ShiftReduce

open ShiftReduce.Configuration

variable {σ V : Type} {p : Parser σ V} {t : PackedTables} {s s' : StateId} {x : SymbolId}
  {c : Configuration σ V} {fuel more : Nat}

/-- A table leads from a state to another one by a symbol. -/
def PackedTables.Edge (t : PackedTables) (s : StateId) (x : SymbolId) (s' : StateId) : Prop :=
  t.action s x = .ok (.shift s') ∨ t.goto s x = .ok (.shift s')

/-- No edge leads to the start state. -/
theorem PackedTables.Edge.ne_start (h : t.Edge s x s') : s' ≠ startState := by
  rintro rfl
  rcases h with h | h
  · obtain ⟨code, -, hcode⟩ := bind_eq_ok.mp h
    exact absurd (Action.pos_of_decode (Except.ok.inj hcode)) (by decide)
  · obtain ⟨code, -, hcode⟩ := bind_eq_ok.mp h
    exact absurd (Action.pos_of_decode (Except.ok.inj hcode)) (by decide)

/-- The entry below all others. -/
def bottomEntry (V : Type) : Entry V := ⟨startState, .empty eof .zero .zero⟩

/-- Entries, top first, that are a path from the start state. -/
structure IsPath (t : PackedTables) (stack : List (Entry V)) : Prop where
  bottom : stack.getLast? = some (bottomEntry V)
  edges : stack.IsChain fun above below => t.Edge below.state above.symbol.id above.state

namespace IsPath

variable {stack stack' rest : List (Entry V)} {top entry : Entry V}

theorem start (t : PackedTables) : IsPath t [bottomEntry V] :=
  ⟨rfl, .singleton _⟩

theorem push (h : IsPath t (top :: rest)) (hedge : t.Edge top.state entry.symbol.id entry.state) :
    IsPath t (entry :: top :: rest) :=
  ⟨h.bottom, .cons_cons hedge h.edges⟩

/-- What is left when entries have been taken off. -/
theorem suffix (h : IsPath t stack) (hsuffix : stack' <:+ stack) (hne : stack' ≠ []) :
    IsPath t stack' := by
  refine ⟨?_, h.edges.suffix hsuffix⟩
  obtain ⟨above, rfl⟩ := hsuffix
  rw [← h.bottom, List.getLast?_append_of_ne_nil _ hne]

/-- The symbol of an entry may change, but for its id, where another entry is below. -/
theorem modify (h : IsPath t (entry :: top :: rest)) {x : Symbol V}
    (hid : x.id = entry.symbol.id) : IsPath t (⟨entry.state, x⟩ :: top :: rest) := by
  have hedges := List.isChain_cons_cons.mp h.edges
  exact ⟨h.bottom, .cons_cons (hid ▸ hedges.1) hedges.2⟩

end IsPath

/-! ## The stack of a parse -/

section Stack

variable {s : ParseStack V} {entry : Entry V} {base target : StateId} {x : Symbol V}

/-- An entry on top of a stack. -/
theorem IsPath.pushed (h : IsPath t s.topDown) (htop : s.topState = .ok base)
    (hedge : t.Edge base x.id target) : IsPath t (s.push target x).topDown := by
  rw [ParseStack.topState_eq_ok, ParseStack.column, List.head?_map, Option.map_eq_some_iff] at htop
  obtain ⟨top, hhead, rfl⟩ := htop
  obtain ⟨rest, hcons⟩ := List.head?_eq_some_iff.mp hhead
  rw [ParseStack.topDown_push, hcons]
  rw [hcons] at h
  exact h.push hedge

/-- The lowest entries of a stack. -/
theorem IsPath.truncated {depth : Nat} (h : IsPath t s.topDown) (hdepth : 1 ≤ depth) :
    IsPath t (s.truncate depth).topDown := by
  rw [ParseStack.topDown_truncate]
  refine h.suffix (List.drop_suffix _ _) ?_
  have hne : s.topDown ≠ [] := by
    intro hnil
    rw [hnil] at h
    cases h.bottom
  have hlength : s.topDown.length = s.depth := Stack.length_topDown _
  rw [Ne, List.drop_eq_nil_iff]
  have hpos := List.length_pos_iff.mpr hne
  omega

theorem topState_of_top (h : s.top = .ok entry) : s.topState = .ok entry.state := by
  rw [ParseStack.topState, h]
  rfl

/-- The entry that shifts the error symbol is on top when those above it are taken off. -/
theorem topState_of_errorShift? {error : SymbolId} {depth kept : Nat}
    (h : Recovery.errorShift? t error s depth = .ok (some (kept, target))) :
    ∃ base, (s.truncate kept).topState = .ok base ∧ t.goto base error = .ok (.shift target) := by
  induction depth with
  | zero => cases h
  | succ depth ih =>
    unfold Recovery.errorShift? at h
    split at h
    · cases h
    · rename_i entry hentry
      obtain ⟨action, hgoto, h⟩ := bind_eq_ok.mp h
      split at h
      · cases h
        refine ⟨entry.state, topState_of_top ?_, hgoto⟩
        have hlt : depth < s.entries.size := (Array.getElem?_eq_some_iff.mp hentry).1
        rw [ParseStack.top_eq_ok, ParseStack.topDown_truncate, ← hentry]
        exact (Stack.get?_eq_head? _ hlt).symm
      · exact ih h

/-- The phrase on top covers more, and its id stays. -/
theorem IsPath.widened {stop : Position} {s' : ParseStack V} (h : IsPath t s.topDown)
    (hdepth : 2 ≤ s.depth) (hmodify : s.modifyTopSymbol ({ · with stop }) = .ok s') :
    IsPath t s'.topDown := by
  have hlength : s.topDown.length = s.depth := Stack.length_topDown _
  match htop : s.topDown with
  | [] => simp only [htop, List.length_nil] at hlength; omega
  | [_] => simp only [htop, List.length_singleton] at hlength; omega
  | phrase :: below :: rest =>
    rw [ParseStack.modifyTopSymbol_eq_ok hmodify htop]
    rw [htop] at h
    exact h.modify rfl

/-- A path, told of the two columns: the bottom, where the start state is, and the edge from each
entry to the next one. -/
theorem IsPath.columns (h : IsPath t s.topDown) :
    1 ≤ s.states.size ∧ s.states[0]? = some startState ∧
      s.symbols[0]? = some (.empty eof .zero .zero) ∧
      (∀ i : Nat, s.states[i]? = some startState → i = 0) ∧
      ∀ (i : Nat) below above x, s.states[i]? = some below → s.states[i + 1]? = some above →
        s.symbols[i + 1]? = some x → t.Edge below x.id above := by
  -- The columns are read from the bottom and the path from the top.
  have hstates : ∀ i : Nat, s.states[i]? = (s.topDown.reverse[i]?).map Entry.state := by
    intro i
    simp [ParseStack.states, ParseStack.topDown, Stack.topDown]
  have hsymbols : ∀ i : Nat, s.symbols[i]? = (s.topDown.reverse[i]?).map Entry.symbol := by
    intro i
    simp [ParseStack.symbols, ParseStack.topDown, Stack.topDown]
  have hbottom : s.topDown.reverse[0]? = some (bottomEntry V) := by
    rw [← List.head?_eq_getElem?, List.head?_reverse, h.bottom]
  have hedges : ∀ (i : Nat) (below above : Entry V), s.topDown.reverse[i]? = some below →
      s.topDown.reverse[i + 1]? = some above →
      t.Edge below.state above.symbol.id above.state := by
    intro i below above hbelow habove
    obtain ⟨hlt, rfl⟩ := List.getElem?_eq_some_iff.mp habove
    obtain ⟨_, rfl⟩ := List.getElem?_eq_some_iff.mp hbelow
    exact List.isChain_iff_getElem.mp (List.isChain_reverse.mpr h.edges) i hlt
  refine ⟨?_, by rw [hstates, hbottom]; rfl, by rw [hsymbols, hbottom]; rfl, ?_, ?_⟩
  · have hpos := List.length_pos_of_mem (List.mem_of_getElem? hbottom)
    rw [List.length_reverse] at hpos
    rw [ParseStack.size_states, ← ParseStack.length_column, ParseStack.column, List.length_map]
    exact hpos
  · intro i hstart
    cases i with
    | zero => rfl
    | succ i =>
      rw [hstates, Option.map_eq_some_iff] at hstart
      obtain ⟨above, habove, hstate⟩ := hstart
      have hlt : i < s.topDown.reverse.length :=
        Nat.lt_of_succ_lt (List.getElem?_eq_some_iff.mp habove).1
      exact absurd hstate (hedges i _ above (List.getElem?_eq_getElem hlt) habove).ne_start
  · intro i below above x hbelow habove hx
    rw [hstates, Option.map_eq_some_iff] at hbelow habove
    rw [hsymbols, Option.map_eq_some_iff] at hx
    obtain ⟨lower, hlower, rfl⟩ := hbelow
    obtain ⟨upper, hupper, rfl⟩ := habove
    obtain ⟨upper', hupper', rfl⟩ := hx
    rw [hupper] at hupper'
    cases hupper'
    exact hedges i lower upper hlower hupper

end Stack

/-- All acts of a parse leave the stack a path. -/
theorem Parser.stable_isPath (p : Parser σ V) (scanner : Scanner V) (goal : Option SymbolId) :
    p.Stable scanner goal (fun c => IsPath p.tables c.stack.topDown)
      (fun _ c => IsPath p.tables c.stack.topDown) := by
  constructor
  case opened => exact fun _ => .start p.tables
  case marked => exact fun _ _ _ => .start p.tables
  case read =>
    intro c q hP hread
    have hreads := readToken_spec hread
    have hstack : IsPath p.tables q.configuration.stack.topDown := hreads.stack_eq ▸ hP
    cases q with
    | running token c' => exact .running hstack
    | finished result c' =>
      obtain ⟨fault, rfl⟩ := hreads.fault_of_finished result c' rfl
      exact .fault hstack
  case shifted =>
    intro c entry token target hP htop hact
    have hpushed := hP.pushed (topState_of_top htop) (.inl hact)
    rw [shifted, push_stack, count_stack, trace_stack]
    exact hpushed
  case reduced =>
    intro c rule info memory hP _ hlength
    rw [reduced, trace_stack, count_stack]
    exact hP.truncated (by omega)
  case followed => exact fun hP htop hgoto => hP.pushed htop (.inr hgoto)
  case accepted =>
    intro c hP
    rw [trace_stack]
    exact hP
  case reported => exact fun hP => hP
  case repaired => exact fun hP => hP
  case recovery =>
    constructor
    case unwound => exact fun hP hdepth => hP.truncated hdepth
    -- The error symbol is entered from the highest entry that has a goto for it.
    case entered =>
      intro c error depth target x hP _ hfound hid
      obtain ⟨base, htop, hgoto⟩ := topState_of_errorShift? hfound
      obtain ⟨hdepth, -⟩ := Recovery.errorShift?_bounds hfound
      exact (hP.truncated hdepth).pushed htop (.inr (hid ▸ hgoto))
    case widened => exact fun hP hdepth hmodify => hP.widened hdepth hmodify
    constructor
    case stream => exact fun hP _ => hP
    case traced =>
      intro c _ _ _ _ _ hP
      rw [trace_stack]
      exact hP
    case told => exact fun hP _ => hP
    case simulated => exact fun hP hsim _ => Recovery.simulate_stack hsim ▸ hP
    case faulted => exact fun hP hsim _ => Recovery.simulate_stack hsim ▸ hP
    case simulating =>
      intro c c' _ hP hsim
      cases hsim with
      | before => exact .inl hP
      | reading _ _ => exact .inl hP

/-! ## The states of a simulator -/

namespace Simulator

/-- What a simulator is about to do. -/
inductive Turn where
  /-- Read a terminal. -/
  | read
  /-- Act on a terminal. -/
  | act (terminal : SymbolId)
  /-- Follow the goto of a left-hand side in front of a terminal. -/
  | follow (terminal lhs : SymbolId)

/-- A table leads from a state to another one by a terminal that has been read, or by the
left-hand side of a rule that has been reduced by. -/
def Leads (t : PackedTables) (read : List SymbolId) (rules : List RuleId) (below above : StateId) :
    Prop :=
  (∃ x ∈ read, t.action below x = .ok (.shift above)) ∨
    ∃ rule ∈ rules, ∃ info, t.rule rule = .ok info ∧ t.goto below info.lhs = .ok (.shift above)

/-- Some of the states that a simulator was given, top first, with those on top that it has
entered itself. -/
def Extends (t : PackedTables) (base : List StateId) (read : List SymbolId) (rules : List RuleId)
    (column : List StateId) : Prop :=
  ∃ entered kept, column = entered ++ kept ∧ kept ≠ [] ∧ kept <:+ base ∧
    (entered ++ kept.take 1).IsChain fun above below => Leads t read rules below above

variable {base column : List StateId} {read read' : List SymbolId} {rules rules' : List RuleId}
  {state target : StateId}

theorem Leads.ne_start (h : Leads t read rules state target) : target ≠ startState := by
  rcases h with ⟨x, -, hact⟩ | ⟨rule, -, info, -, hgoto⟩
  · exact PackedTables.Edge.ne_start (.inl hact)
  · exact PackedTables.Edge.ne_start (.inr hgoto)

/-- A simulator does not enter the start state. -/
theorem start_not_mem {entered below : List StateId} (hne : below ≠ [])
    (h : (entered ++ below).IsChain fun above below => Leads t read rules below above) :
    startState ∉ entered := by
  induction entered with
  | nil => exact List.not_mem_nil
  | cons top rest ih =>
    obtain ⟨next, more, hcons⟩ :=
      List.exists_cons_of_ne_nil (List.append_ne_nil_of_right_ne_nil rest hne)
    rw [List.cons_append, hcons, List.isChain_cons_cons] at h
    rw [List.mem_cons, not_or]
    exact ⟨h.1.ne_start.symm, ih (hcons ▸ h.2)⟩

namespace Extends

theorem refl (t : PackedTables) (hne : base ≠ []) : Extends t base [] [] base := by
  refine ⟨[], base, rfl, hne, List.suffix_refl _, ?_⟩
  obtain ⟨top, rest, rfl⟩ := List.exists_cons_of_ne_nil hne
  exact .singleton top

theorem mono (h : Extends t base read rules column) (hread : read ⊆ read')
    (hrules : rules ⊆ rules') : Extends t base read' rules' column := by
  obtain ⟨entered, kept, hcolumn, hne, hsuffix, hedges⟩ := h
  refine ⟨entered, kept, hcolumn, hne, hsuffix, hedges.imp ?_⟩
  intro above below hleads
  rcases hleads with ⟨x, hx, hact⟩ | ⟨rule, hrule, hgoto⟩
  · exact .inl ⟨x, hread hx, hact⟩
  · exact .inr ⟨rule, hrules hrule, hgoto⟩

theorem enter (h : Extends t base read rules column) (htop : column.head? = some state)
    (hleads : Leads t read rules state target) :
    Extends t base read rules (target :: column) := by
  obtain ⟨entered, kept, rfl, hne, hsuffix, hedges⟩ := h
  refine ⟨target :: entered, kept, rfl, hne, hsuffix, hedges.cons ?_⟩
  obtain ⟨first, rest, rfl⟩ := List.exists_cons_of_ne_nil hne
  intro below hbelow
  have hsame : (entered ++ (first :: rest).take 1).head? = (entered ++ first :: rest).head? := by
    cases entered <;> rfl
  rw [hsame, htop] at hbelow
  cases hbelow
  exact hleads

/-- Some of its states are dropped, but not all. -/
theorem drop (h : Extends t base read rules column) {n : Nat} (hn : n < column.length) :
    Extends t base read rules (column.drop n) := by
  obtain ⟨entered, kept, rfl, hne, hsuffix, hedges⟩ := h
  rcases Nat.le_total n entered.length with hle | hle
  · refine ⟨entered.drop n, kept, List.drop_append_of_le_length hle, hne, hsuffix, ?_⟩
    rw [← List.drop_append_of_le_length hle]
    exact hedges.drop n
  -- All that has been entered is dropped, and some of what was given.
  · have hdrop : (entered ++ kept).drop n = kept.drop (n - entered.length) := by
      rw [List.drop_append, List.drop_eq_nil_of_le hle, List.nil_append]
    rw [List.length_append] at hn
    refine ⟨[], kept.drop (n - entered.length), hdrop, ?_, ?_, ?_⟩
    · rw [Ne, List.drop_eq_nil_iff]
      omega
    · exact (List.drop_suffix _ _).trans hsuffix
    · rcases kept.drop (n - entered.length) with _ | ⟨top, rest⟩
      · exact .nil
      · exact .singleton top

end Extends

end Simulator

namespace Simulation

open Simulator

/-- The moments of a simulation from some states over a stream: the terminals that have been read
and the rules that have been reduced by until then, what comes next, and the simulator. -/
inductive Course (t : PackedTables) (base : Array StateId) (stream : TokenStream V) :
    List SymbolId → List RuleId → Turn → Simulator → TokenStream V → Prop
  | start : Course t base stream [] [] .read (.ofStates base) stream
  | read {read : List SymbolId} {rules : List RuleId} {sim : Simulator} {s : TokenStream V}
      {d : Delivery V} {token : Symbol V} : Course t base stream read rules .read sim s →
      s.nextBuffered = .ok d → d.result = .ok token →
      Course t base stream (read ++ [token.id]) rules (.act token.id) sim d.stream
  | shift {read : List SymbolId} {rules : List RuleId} {x : SymbolId} {sim : Simulator}
      {s : TokenStream V} {state target : StateId} :
      Course t base stream read rules (.act x) sim s → sim.states.top? = some state →
      t.action state x = .ok (.shift target) →
      Course t base stream read rules .read (sim.enter target) s
  | drop {read : List SymbolId} {rules : List RuleId} {x : SymbolId} {sim : Simulator}
      {s : TokenStream V} {state : StateId} {rule : RuleId} {info : Rule} :
      Course t base stream read rules (.act x) sim s → sim.states.top? = some state →
      t.action state x = .ok (.reduce rule) → t.rule rule = .ok info →
      info.length < sim.states.size →
      Course t base stream read (rules ++ [rule]) (.follow x info.lhs)
        (sim.dropTo (sim.states.size - info.length)) s
  | enter {read : List SymbolId} {rules : List RuleId} {x lhs : SymbolId} {sim : Simulator}
      {s : TokenStream V} {state target : StateId} :
      Course t base stream read rules (.follow x lhs) sim s → sim.states.top? = some state →
      t.goto state lhs = .ok (.shift target) →
      Course t base stream read rules (.act x) (sim.enter target) s

variable {base : Array StateId} {stream s : TokenStream V} {read : List SymbolId}
  {rules : List RuleId} {turn : Turn} {sim sim' : Simulator} {v : Verdict} {run : Simulation V}
  {lexical : List LexicalError}

/-- What a simulator is about to do is due to what it has read and reduced by. -/
def Due (t : PackedTables) (read : List SymbolId) (rules : List RuleId) : Turn → Prop
  | .read => True
  | .act x => x ∈ read
  | .follow x lhs => x ∈ read ∧ ∃ rule ∈ rules, ∃ info, t.rule rule = .ok info ∧ info.lhs = lhs

/-- At every moment of a simulation, the states are some of those given, and on top of them those
that have been entered. -/
theorem Course.extends (h : Course t base stream read rules turn sim s) (hne : base.toList ≠ []) :
    Extends t base.toList.reverse read rules sim.column ∧ Due t read rules turn := by
  induction h with
  | start =>
    rw [column_ofStates]
    exact ⟨.refl t (by simpa using hne), trivial⟩
  | read _ _ _ ih =>
    exact ⟨ih.1.mono (List.subset_append_left _ _) (List.Subset.refl _), by simp [Due]⟩
  | shift _ htop hact ih =>
    rw [top?_states] at htop
    rw [column_enter]
    exact ⟨ih.1.enter htop (.inl ⟨_, ih.2, hact⟩), trivial⟩
  | drop _ _ _ hrule hlength ih =>
    rw [column_dropTo _ (Nat.le_of_lt hlength)]
    rw [size_states] at hlength
    refine ⟨(ih.1.drop hlength).mono (List.Subset.refl _) (List.subset_append_left _ _), ih.2, ?_⟩
    exact ⟨_, by simp, _, hrule, rfl⟩
  | enter _ htop hgoto ih =>
    obtain ⟨hread, rule, hmem, info, hrule, rfl⟩ := ih.2
    rw [top?_states] at htop
    rw [column_enter]
    exact ⟨ih.1.enter htop (.inr ⟨rule, hmem, info, hrule, hgoto⟩), hread⟩

/-- Without a state to begin with, no state is entered. -/
theorem Course.column_eq_nil (h : Course t base stream read rules turn sim s)
    (hnil : base.toList = []) : sim.column = [] := by
  have hnone : ∀ {sim : Simulator} {state : StateId}, sim.column = [] →
      sim.states.top? ≠ some state := by
    intro sim state hcolumn htop
    rw [top?_states, hcolumn] at htop
    cases htop
  induction h with
  | start => rw [column_ofStates, hnil, List.reverse_nil]
  | read _ _ _ ih => exact ih
  | shift _ htop _ ih => exact absurd htop (hnone ih)
  | drop _ htop _ _ _ ih => exact absurd htop (hnone ih)
  | enter _ htop _ ih => exact absurd htop (hnone ih)

/-- A moment from which there is no way to go on, whatever comes behind it: nothing is shifted or
dropped, or no goto is followed. -/
def Stuck (t : PackedTables) (sim : Simulator) : Turn → Prop
  | .read => False
  | .act x => ∀ state action, sim.states.top? = some state → t.action state x = .ok action →
      (∀ target, action ≠ .shift target) ∧
        ∀ rule info, action = .reduce rule → t.rule rule = .ok info →
          sim.states.size ≤ info.length
  | .follow _ lhs => ∀ state target, sim.states.top? = some state →
      t.goto state lhs ≠ .ok (.shift target)

/-- With another action than these, a simulator is stuck. -/
theorem stuck_of_action {state : StateId} {action : Action} (htop : sim.states.top? = some state)
    (hact : t.action state x = .ok action) (hshift : ∀ target, action ≠ .shift target)
    (hreduce : ∀ rule info, action = .reduce rule → t.rule rule = .ok info →
      sim.states.size ≤ info.length) : Stuck t sim (.act x) := by
  intro state' action' htop' hact'
  rw [htop] at htop'
  cases htop'
  rw [hact] at hact'
  cases hact'
  exact ⟨hshift, hreduce⟩

/-- A reduction drops the right-hand side of a rule, and then there is a goto to follow, unless
the rule is too long. -/
theorem Course.reduce {state : StateId} {rule : RuleId} {found : Action}
    (h : Course t base stream read rules (.act x) sim s) (htop : sim.states.top? = some state)
    (hact : t.action state x = .ok (.reduce rule))
    (hreduce : Simulator.reduce t rule sim = .ok (found, sim')) :
    (found = .error ∧ sim' = sim ∧ Stuck t sim (.act x)) ∨
      ∃ lhs, Course t base stream read (rules ++ [rule]) (.follow x lhs) sim' s ∧
        (∀ target, found = .shift target →
          Course t base stream read (rules ++ [rule]) (.act x) (sim'.enter target) s) ∧
        ((∀ target, found ≠ .shift target) → Stuck t sim' (.follow x lhs)) := by
  obtain ⟨info, hrule, hreduce⟩ := bind_eq_ok.mp hreduce
  split at hreduce
  · rename_i hlength
    cases hreduce
    -- The rule does not fit the states, whatever it produces.
    refine .inl ⟨rfl, rfl, stuck_of_action htop hact (fun _ => Action.noConfusion) ?_⟩
    rintro _ info' hsame hrule'
    cases hsame
    rw [hrule] at hrule'
    cases hrule'
    exact hlength
  · rename_i hlength
    have hdropped := h.drop htop hact hrule (Nat.not_le.mp hlength)
    dsimp only at hreduce
    split at hreduce
    · rename_i below hbelow
      obtain ⟨action, hgoto, hreduce⟩ := bind_eq_ok.mp hreduce
      cases hreduce
      refine .inr ⟨info.lhs, hdropped, ?_, ?_⟩
      · rintro target rfl
        exact hdropped.enter hbelow hgoto
      · intro hne state' target htop' hgoto'
        rw [hbelow] at htop'
        cases htop'
        rw [hgoto] at hgoto'
        exact hne target (Except.ok.inj hgoto')
    · rename_i hbare
      cases hreduce
      refine .inr ⟨info.lhs, hdropped, fun _ => Action.noConfusion, ?_⟩
      intro _ state' target htop'
      rw [hbare] at htop'
      cases htop'

/-- A simulator acts on a terminal until it has shifted it, or it accepts or refuses and is
stuck. -/
theorem Course.advance (h : Course t base stream read rules (.act x) sim s)
    (hadvance : Simulator.advance t x fuel sim = .ok (v, sim')) :
    ∃ rules' turn, Course t base stream read rules' turn sim' s ∧
      (v = .shifted → turn = .read) ∧ (v ≠ .shifted → Stuck t sim' turn) := by
  induction fuel generalizing sim rules with
  | zero => cases hadvance
  | succ fuel ih =>
    unfold Simulator.advance at hadvance
    split at hadvance
    · rename_i hbare
      cases hadvance
      refine ⟨_, _, h, Verdict.noConfusion, fun _ state action htop => ?_⟩
      rw [hbare] at htop
      cases htop
    · rename_i state htop
      obtain ⟨action, hact, hadvance⟩ := bind_eq_ok.mp hadvance
      rw [liftM_eq_ok] at hact
      cases action with
      | shift target =>
        cases hadvance
        exact ⟨_, _, h.shift htop hact, fun _ => rfl, fun hv => absurd rfl hv⟩
      | accept =>
        cases hadvance
        exact ⟨_, _, h, Verdict.noConfusion, fun _ =>
          stuck_of_action htop hact (fun _ => Action.noConfusion) fun _ _ => Action.noConfusion⟩
      | error =>
        cases hadvance
        exact ⟨_, _, h, Verdict.noConfusion, fun _ =>
          stuck_of_action htop hact (fun _ => Action.noConfusion) fun _ _ => Action.noConfusion⟩
      | reduce rule =>
        obtain ⟨⟨found, mid⟩, hreduce, hadvance⟩ := bind_eq_ok.mp hadvance
        rcases h.reduce htop hact (liftM_eq_ok.mp hreduce) with
          ⟨hfound, hsame, hstuck⟩ | ⟨lhs, hmid, hentered, hstuck⟩
        -- The rule is too long for the states.
        · rw [hfound, hsame] at hadvance
          cases hadvance
          exact ⟨_, _, h, Verdict.noConfusion, fun _ => hstuck⟩
        · cases found with
          | shift target => exact ih (hentered target rfl) hadvance
          | accept =>
            cases hadvance
            exact ⟨_, _, hmid, Verdict.noConfusion, fun _ => hstuck fun _ => Action.noConfusion⟩
          | reduce other =>
            cases hadvance
            exact ⟨_, _, hmid, Verdict.noConfusion, fun _ => hstuck fun _ => Action.noConfusion⟩
          | error =>
            cases hadvance
            exact ⟨_, _, hmid, Verdict.noConfusion, fun _ => hstuck fun _ => Action.noConfusion⟩

/-- How a simulation that returns has ended: at a moment from which there is no way to go on, with
a full stream, or with a fault in the place of a token. -/
inductive Ends (t : PackedTables) (turn : Turn) (s : TokenStream V) (run : Simulation V) : Prop
  | stuck : run.stream = s → Stuck t run.simulator turn → Ends t turn s run
  | full : run.stream = s → turn = .read → s.isFull = true → Ends t turn s run
  | faulty {d : Delivery V} {fault : ScanError} : turn = .read → s.nextBuffered = .ok d →
      d.result = .error fault → run.stream = d.stream → Ends t turn s run

/-- A simulation goes on from one of its moments to another one, and this is its end if it may read
all of the window. -/
theorem Course.proceeds (h : Course t base stream read rules .read sim s)
    (hrun : Proceeds t fuel more sim s lexical run) :
    ∃ read' rules' turn s', Course t base stream read' rules' turn run.simulator s' ∧
      (s.window ≤ s.read + more + 1 → Ends t turn s' run) := by
  -- By induction on the tokens read, each of which makes the course longer.
  induction hrun generalizing read rules with
  | faulty hnext hresult => exact ⟨_, _, _, _, h, fun _ => .faulty rfl hnext hresult rfl⟩
  | @last more _ _ s _ d _ v hnext htoken hadvance hlast =>
    obtain ⟨rules', turn, hcourse, hturn, hstuck⟩ := (h.read hnext htoken).advance hadvance
    refine ⟨_, _, _, _, hcourse, fun hquota => ?_⟩
    by_cases hshifted : v = .shifted
    · have hread := TokenStream.read_le_of_nextBuffered hnext
      obtain ⟨hahead, -⟩ := TokenStream.readAhead_nextBuffered hnext hread
      obtain ⟨-, hcursor⟩ := TokenStream.held_of_nextBuffered hnext hread htoken
      refine .full rfl (hturn hshifted) ?_
      rw [TokenStream.isFull, hahead.buffering, hahead.window_eq, hcursor, Bool.true_and,
        decide_eq_true_eq]
      rw [hlast hshifted] at hquota
      exact hquota
    · exact .stuck rfl (hstuck hshifted)
  | further hnext htoken hadvance _ ih =>
    obtain ⟨rules', turn, hcourse, hturn, -⟩ := (h.read hnext htoken).advance hadvance
    obtain rfl := hturn rfl
    have hread := TokenStream.read_le_of_nextBuffered hnext
    obtain ⟨hahead, -⟩ := TokenStream.readAhead_nextBuffered hnext hread
    obtain ⟨-, hcursor⟩ := TokenStream.held_of_nextBuffered hnext hread htoken
    obtain ⟨read', rules'', turn', s', hcourse', hends⟩ := ih hcourse
    refine ⟨read', rules'', turn', s', hcourse', fun hquota => hends ?_⟩
    rw [hahead.window_eq, hcursor]
    omega

/-- The result of a simulation is one of its moments. -/
theorem Course.runTokens (h : Course t base stream read rules .read sim s)
    (hrun : Simulation.runTokens t fuel more sim s lexical = .ok run) :
    ∃ read' rules' turn s', Course t base stream read' rules' turn run.simulator s' := by
  obtain ⟨read', rules', turn, s', hcourse, -⟩ := h.proceeds (proceeds_of_runTokens hrun)
  exact ⟨read', rules', turn, s', hcourse⟩

end Simulation

/-! ## Paths at every moment -/

namespace Parser

open Simulator

/-- At every moment of a parse the stack is a path of the table: at the bottom is the start state,
which is nowhere else, and each state is entered from the one below by its symbol. A simulator
keeps some of the states that it was given, and goes on from there by terminals that it has read
and by the left-hand sides of rules that it has reduced by. -/
theorem stack_is_path :
    (∀ c, p.Moment c →
      c.stack.states.size = c.stack.symbols.size ∧ 1 ≤ c.stack.states.size ∧
      c.stack.states[0]? = some startState ∧
      c.stack.symbols[0]? = some (.empty eof .zero .zero) ∧
      (∀ i : Nat, c.stack.states[i]? = some startState → i = 0) ∧
      ∀ (i : Nat) below above x, c.stack.states[i]? = some below →
        c.stack.states[i + 1]? = some above → c.stack.symbols[i + 1]? = some x →
        p.tables.action below x.id = .ok (.shift above) ∨
          p.tables.goto below x.id = .ok (.shift above)) ∧
    ∀ (base : Array StateId) (stream : TokenStream V),
      (∀ read rules turn sim s, Simulation.Course p.tables base stream read rules turn sim s →
        ∃ entered kept, sim.column = entered ++ kept ∧ kept <:+ base.toList.reverse ∧
          (base ≠ #[] → kept ≠ []) ∧ startState ∉ entered ∧
          (entered ++ kept.take 1).IsChain fun above below =>
            (∃ x ∈ read, p.tables.action below x = .ok (.shift above)) ∨
              ∃ rule ∈ rules, ∃ info, p.tables.rule rule = .ok info ∧
                p.tables.goto below info.lhs = .ok (.shift above)) ∧
      ∀ fuel run, Simulation.run p.tables fuel base stream = .ok run →
        ∃ read rules turn s,
          Simulation.Course p.tables base stream read rules turn run.simulator s := by
  constructor
  · intro c hmoment
    obtain ⟨scanner, goal, hmoment⟩ := hmoment.exists_momentOf
    have hpath : IsPath p.tables c.stack.topDown := by
      rcases (p.stable_isPath scanner goal).held hmoment with hpath | ⟨fault, hpath⟩
      · exact hpath
      · exact hpath
    exact ⟨by rw [ParseStack.size_states, ParseStack.size_symbols], hpath.columns⟩
  · intro base stream
    refine ⟨?_, fun fuel run hrun => Simulation.Course.start.runTokens hrun⟩
    intro read rules turn sim s hcourse
    by_cases hnil : base.toList = []
    · exact ⟨[], [], hcourse.column_eq_nil hnil, List.nil_suffix,
        fun hne => absurd (Array.toList_eq_nil_iff.mp hnil) hne, List.not_mem_nil, .nil⟩
    obtain ⟨entered, kept, hcolumn, hkept, hsuffix, hedges⟩ := (hcourse.extends hnil).1
    have htake : kept.take 1 ≠ [] := by simpa using hkept
    exact ⟨entered, kept, hcolumn, hsuffix, fun _ => hkept, start_not_mem htake hedges, hedges⟩

/-- The letter leads from the start state to the other one, and a simulation goes on from the
start state. -/
theorem stack_is_path_oneLetter :
    (∃ c, oneLetter.Moment c ∧ c.stack.states = #[0, 1] ∧ c.stack.symbols[1]? = some letter ∧
      (oneLetter.tables.action 0 1 = .ok (.shift 1) ∨
        oneLetter.tables.goto 0 1 = .ok (.shift 1))) ∧
    ∃ (stream : TokenStream Unit) (run : Simulation Unit),
      Simulation.run oneLetter.tables 10 #[startState] stream = .ok run ∧
      ∃ read rules turn s,
        Simulation.Course oneLetter.tables #[startState] stream read rules turn run.simulator s ∧
        ∃ entered kept, run.simulator.column = entered ++ kept ∧ kept <:+ [startState] ∧
          startState ∉ entered := by
  obtain ⟨hpath, hsim⟩ := @stack_is_path _ _ oneLetter
  constructor
  · obtain ⟨c, hreach, htop, -⟩ := oneLetter_reaches_error
    have hmoment : oneLetter.Moment c := .between hreach
    have hstates : c.stack.states = #[0, 1] := by
      rw [← Array.toList_inj, ← List.reverse_inj, ← ParseStack.column_eq_reverse_states,
        ParseStack.column, htop]
      rfl
    have hsymbols : c.stack.symbols = #[.empty eof .zero .zero, letter] := by
      rw [← Array.toList_inj, ParseStack.toList_symbols, htop]
      rfl
    obtain ⟨-, -, -, -, -, hedges⟩ := hpath c hmoment
    exact ⟨c, hmoment, hstates, by rw [hsymbols]; rfl,
      hedges 0 0 1 letter (by rw [hstates]; rfl) (by rw [hstates]; rfl) (by rw [hsymbols]; rfl)⟩
  · obtain ⟨run, hrun, -⟩ := exists_ok_of_any
      (show ((liftM (TokenStream.ofScanner (.ofTokens [letter]) 3 12) : Fueled _) >>= fun stream =>
        Simulation.run oneLetter.tables 10 #[startState] (stream.setBuffering true)).toOption.any
          (fun _ => true) = true by decide +kernel)
    obtain ⟨stream, -, hrun⟩ := bind_eq_ok.mp hrun
    obtain ⟨hextends, hresults⟩ := hsim #[startState] (stream.setBuffering true)
    obtain ⟨read, rules, turn, s, hcourse⟩ := hresults 10 run hrun
    obtain ⟨entered, kept, hcolumn, hsuffix, -, hstart, -⟩ := hextends _ _ _ _ _ hcourse
    exact ⟨_, run, hrun, read, rules, turn, s, hcourse, entered, kept, hcolumn, hsuffix, hstart⟩

end Parser

end ShiftReduce
