import ShiftReduce.Proofs.Derivation.Stacks
import ShiftReduce.Proofs.Parser.Acts

/-!
# Parses as derivations

Whatever tables a parser has, its stack is a bottom-up derivation of what it has shifted, and
the values on it are those of the trees.

* `Course`: a run with the acts in it. They are read off the actions of the tables, and
  error phrases are those that are told.
* `Derives.step`: one step goes on with a derivation.
* `Course.stands`: a whole run.
-/

namespace ShiftReduce.Parser

open ShiftReduce.Configuration

variable {σ V : Type} {p : Parser σ V} {f : RuleId → Args V → Checked (Option V)}
  {note : RuleId → Args V → σ → σ} {m memory : σ} {fuel : Nat} {c c' : Configuration σ V}
  {token x : Symbol V} {q : Progress σ V} {acts : List (Act V)} {rule : RuleId}
  {scanner : Scanner V} {goal : Option SymbolId}

/-! ## Runs with what happens in them -/

/-- What an action on the current token does to the stack. An error does something to it just
if an error phrase has been told since. -/
def actsBy (token : Symbol V) (c : Configuration σ V) (q : Progress σ V) : Action → List (Act V)
  | .shift _ => [.shift token]
  | .reduce rule => [.reduce rule]
  | .accept => []
  | .error => ((q.configuration.repairs.drop c.repairs.length).filterMap Notice.phrase?).map .phrase

/-- What a step does to the stack. -/
def actsOf (p : Parser σ V) (token : Symbol V) (c : Configuration σ V) (q : Progress σ V) :
    List (Act V) :=
  match c.stack.topState >>= fun state => p.tables.action state token.id with
  | .ok action => actsBy token c q action
  | .error _ => []

/-- A run that begins with a memory, with its acts. -/
inductive Course (p : Parser σ V) (scanner : Scanner V) (goal : Option SymbolId) (m : σ) :
    List (Act V) → Progress σ V → Prop
  | start {q : Progress σ V} : Starts p scanner goal q → q.configuration.memory = m →
      Course p scanner goal m [] q
  | step {acts : List (Act V)} {token : Symbol V} {c : Configuration σ V} {fuel : Nat}
      {q : Progress σ V} : Course p scanner goal m acts (.running token c) →
      p.step fuel token c = .ok q → Course p scanner goal m (acts ++ p.actsOf token c q) q

/-- Every run has a course. -/
theorem Reachable.exists_course (h : p.Reachable q) :
    ∃ scanner goal m acts, p.Course scanner goal m acts q := by
  obtain ⟨scanner, goal, start, hstart, hreach⟩ := h
  induction hreach with
  | refl => exact ⟨scanner, goal, _, [], .start hstart rfl⟩
  | tail _ hstep ih =>
    cases hstep with
    | intro hstep =>
      obtain ⟨scanner, goal, m, acts, hcourse⟩ := ih
      exact ⟨scanner, goal, m, _, .step hcourse hstep⟩

/-- The acts of a run, from where it stands on. -/
def actsFrom (p : Parser σ V) : Nat → Progress σ V → List (Act V)
  | fuel + 1, .running token c =>
    match p.step fuel token c with
    | .ok q => p.actsOf token c q ++ p.actsFrom fuel q
    | .error _ => []
  | _, _ => []

/-- A run that returns is a course to its end. -/
theorem Course.run {o : Outcome σ V} (h : p.Course scanner goal m acts q)
    (hrun : p.run fuel q = .ok o) :
    ∃ c, p.Course scanner goal m (acts ++ p.actsFrom fuel q) (.finished o.result c) := by
  induction fuel generalizing acts q with
  | zero =>
    cases q with
    | running token c => cases hrun
    | finished result c =>
      cases hrun
      exact ⟨c, (List.append_nil acts).symm ▸ h⟩
  | succ fuel ih =>
    cases q with
    | running token c =>
      obtain ⟨q', hstep, hrest⟩ := bind_eq_ok.mp hrun
      obtain ⟨c', hend⟩ := ih (h.step hstep) hrest
      refine ⟨c', ?_⟩
      rw [actsFrom, hstep, ← List.append_assoc]
      exact hend
    | finished result c =>
      cases hrun
      exact ⟨c, (List.append_nil acts).symm ▸ h⟩

/-! ## What a step has done -/

theorem actsOf_of_top {entry : Entry V} {action : Action} (htop : c.stack.top = .ok entry)
    (hact : p.tables.action entry.state token.id = .ok action) (q : Progress σ V) :
    p.actsOf token c q = actsBy token c q action := by
  have hstate : c.stack.topState = .ok entry.state := by
    rw [ParseStack.topState, htop]
    rfl
  rw [actsOf, hstate, ok_bind, hact]

/-! ## How a parse stands -/

/-- A parse stands on derivations: of its stack; of what its stack and the symbol that was
accepted on a goto would be; or of a stack with a phrase that is not told, since the parse
was given up. -/
inductive Stands (p : Parser σ V) (f : RuleId → Args V → Checked (Option V))
    (note : RuleId → Args V → σ → σ) (m : σ) (acts : List (Act V)) : Progress σ V → Prop
  | running {token : Symbol V} {c : Configuration σ V} :
      Derives p.tables f note m acts c.stack.symbols.toList c.memory →
      Stands p f note m acts (.running token c)
  | accepted {c : Configuration σ V} {x : Symbol V} :
      Derives p.tables f note m acts c.stack.symbols.toList c.memory →
      c.stack.symbols.toList.getLast? = some x → Stands p f note m acts (.finished (.ok x.value) c)
  | gotoAccepted {before : List (Act V)} {rule : RuleId} {c : Configuration σ V} {x : Symbol V} :
      acts = before ++ [.reduce rule] →
      Derives p.tables f note m acts (c.stack.symbols.toList ++ [x]) c.memory →
      Stands p f note m acts (.finished (.ok x.value) c)
  | failed {c : Configuration σ V} {e : ParseError} :
      Derives p.tables f note m acts c.stack.symbols.toList c.memory →
      Stands p f note m acts (.finished (.error e) c)
  | abandoned {c : Configuration σ V} {e : ParseError} {x : Symbol V} :
      Derives p.tables f note m (acts ++ [.phrase x]) c.stack.symbols.toList c.memory →
      Stands p f note m acts (.finished (.error e) c)

/-- Reading a token does nothing to the stack. -/
theorem stands_of_read (h : Derives p.tables f note m acts c.stack.symbols.toList c.memory)
    (hread : c.readToken = .ok q) : p.Stands f note m acts q := by
  obtain ⟨d, -, hread⟩ := bind_eq_ok.mp hread
  dsimp only at hread
  split at hread
  · cases hread
    exact .running h
  · cases hread
    exact .failed h

theorem stands_of_reduce (hactions : p.actions = .observed f note)
    (h : Derives p.tables f note m acts c.stack.symbols.toList c.memory)
    (hreduce : p.reduce rule token c = .ok q) : p.Stands f note m (acts ++ [.reduce rule]) q := by
  obtain ⟨info, xs, ys, below, value, memory, hrule, hsplit, hlength, hbelow, hvalue, hstack, base,
    hfollow⟩ := reduce_eq_ok hreduce
  have hmemory := reduced_memory p rule info memory c
  have hne : xs ≠ [] := by
    rintro rfl
    cases hbelow
  have hlast : xs.getLast hne = below := by
    rw [List.getLast?_eq_some_getLast hne, Option.some_inj] at hbelow
    exact hbelow
  rw [hactions, Actions.observed_eq_ok] at hvalue
  obtain ⟨hvalue, rfl⟩ := hvalue
  rw [hsplit] at h
  have hderives := h.reduce hne hrule hlength hvalue
  rw [hlast] at hderives
  rcases follow_eq_ok hfollow with ⟨target, rfl⟩ | rfl
  · refine .running ?_
    rw [push_stack, ParseStack.toList_symbols_push, push_memory, hstack, hmemory]
    exact hderives
  · refine .gotoAccepted rfl ?_
    rw [trace_stack, trace_memory, hstack, hmemory]
    exact hderives

/-! ## Repairs -/

/-- A repair is told, and if it is an error phrase it stands on the stack. -/
theorem derives_of_repaired {entry : Entry V} (htop : c.stack.top = .ok entry)
    (hact : p.tables.action entry.state token.id = .ok .error)
    (h : Derives p.tables f note m acts c.stack.symbols.toList c.memory)
    (hrecover : Recovery.recover p fuel token c = .ok (.repaired c')) :
    ∃ notice : Notice V, c'.repairs = c.repairs ++ [notice] ∧
      Derives p.tables f note m (acts ++ notice.phrase?.toList.map .phrase)
        c'.stack.symbols.toList c'.memory := by
  have hmemory : c'.memory = c.memory := (Recovery.recover_keeps hrecover).1
  obtain ⟨i, P, -, -, hstack, -, ho, hc⟩ := exists_commits htop hact hrecover
  rw [hmemory]
  refine ⟨P.notice, hc.repairs, ?_⟩
  rcases ho.stack_cases with ⟨hnotice, hsame⟩ | ⟨x, hnotice, hreplaces⟩
  · rw [hnotice, ParseStack.toList_symbols, hc.stack, hsame, ← hstack,
      ← ParseStack.toList_symbols]
    simpa using h
  · rw [← hstack, ← hc.stack] at hreplaces
    rw [hnotice]
    exact h.replaces hreplaces

/-- Where recovery gives up, the stack may have a phrase that is not told. -/
theorem stands_of_aborted {e : ParseError}
    (h : Derives p.tables f note m acts c.stack.symbols.toList c.memory)
    (hrecover : Recovery.recover p fuel token c = .ok (.aborted e c')) :
    p.Stands f note m acts (.finished (.error e) c') := by
  obtain ⟨hmemory, hstack⟩ := Recovery.recover_keeps hrecover
  have hmemory' : c'.memory = c.memory := hmemory
  rcases hstack with hstack | ⟨x, hreplaces⟩
  · have hstack' : c'.stack = c.stack := hstack
    refine .failed ?_
    rw [hstack', hmemory']
    exact h
  · have hderives := h.replaces hreplaces
    rw [← hmemory'] at hderives
    exact .abandoned hderives

/-- What is told behind the repairs so far tells the acts of a repair. -/
theorem actsBy_error {notices : List (Notice V)}
    (h : q.configuration.repairs = c.repairs ++ notices) :
    actsBy token c q .error = (notices.filterMap Notice.phrase?).map .phrase := by
  rw [actsBy, h, List.drop_left]

theorem stands_of_repair {entry : Entry V} (htop : c.stack.top = .ok entry)
    (hact : p.tables.action entry.state token.id = .ok .error)
    (h : Derives p.tables f note m acts c.stack.symbols.toList c.memory)
    (hrepair : p.repair fuel token c = .ok q) :
    p.Stands f note m (acts ++ actsBy token c q .error) q := by
  have htop' : (c.reported token).stack.top = .ok entry := htop
  have hderives : Derives p.tables f note m acts (c.reported token).stack.symbols.toList
      (c.reported token).memory := h
  have hreported : (c.reported token).repairs = c.repairs := repairs_reported token c
  have hnothing : q.configuration.repairs = c.repairs → acts ++ actsBy token c q .error = acts := by
    intro hrepairs
    have hnone : q.configuration.repairs = c.repairs ++ [] := by rw [hrepairs, List.append_nil]
    rw [actsBy_error hnone]
    exact List.append_nil _
  rcases repair_cases hrepair with ⟨_, _, rfl⟩ | ⟨e, c', hrecover, rfl⟩ |
    ⟨c', -, hrecover, hread⟩
  · rw [hnothing hreported]
    exact .failed h
  · rw [hnothing ((repairs_of_aborted htop' hact hrecover).trans hreported)]
    exact stands_of_aborted hderives hrecover
  · obtain ⟨notice, hrepairs, hrepaired⟩ := derives_of_repaired htop' hact hderives hrecover
    rw [hreported] at hrepairs
    rw [actsBy_error ((readToken_spec hread).repairs_eq.trans hrepairs)]
    refine stands_of_read ?_ hread
    cases hnotice : notice.phrase? <;> simpa [hnotice] using hrepaired

/-! ## Runs -/

/-- A step goes on with the derivation. -/
theorem stands_of_step (hactions : p.actions = .observed f note)
    (h : Derives p.tables f note m acts c.stack.symbols.toList c.memory)
    (hstep : p.step fuel token c = .ok q) :
    p.Stands f note m (acts ++ p.actsOf token c q) q := by
  obtain ⟨entry, action, htop, hact, hdone⟩ := exists_act hstep
  rw [actsOf_of_top htop hact]
  cases action with
  | shift target =>
    refine stands_of_read ?_ (liftM_eq_ok.mp hdone)
    rw [shifted_symbols, shifted_memory]
    exact h.shift token
  | reduce rule => exact stands_of_reduce hactions h (liftM_eq_ok.mp hdone)
  | accept =>
    cases hdone
    rw [actsBy, List.append_nil]
    refine .accepted ?_ ?_
    · rw [trace_stack, trace_memory]
      exact h
    · rw [trace_stack]
      exact ParseStack.getLast?_symbols htop
  | error => exact stands_of_repair htop hact h hdone

/-- A parse starts with nothing but the bottom of its stack. -/
theorem stands_of_starts (h : p.Starts scanner goal q) (hmemory : q.configuration.memory = m) :
    p.Stands f note m [] q := by
  obtain ⟨stream, memory, hread⟩ := h.exists_read
  have hkept : q.configuration.memory = memory := readToken_memory hread
  obtain rfl := hkept.symm.trans hmemory
  refine stands_of_read ?_ hread
  rw [initial_symbols]
  exact .bottom_alone

/-- A whole run stands on derivations. -/
theorem Course.stands (hactions : p.actions = .observed f note)
    (h : p.Course scanner goal m acts q) : p.Stands f note m acts q := by
  induction h with
  | start hstart hmemory => exact stands_of_starts hstart hmemory
  | step _ hstep ih =>
    cases ih with
    | running hderives => exact stands_of_step hactions hderives hstep

/-- At any point of a run there is a tree for each symbol on the stack but the bottom one. The
symbols are those that the trees evaluate to. The trees are what the acts so far have built, so
their leaves are the terminals shifted so far, but where some were unwound an error phrase
stands. The function has been called once for each reduction, in order, and for nothing
else. A parse returns the value of the top tree where an action accepts, and where a goto
accepts that of the tree just built. -/
theorem stack_is_derivation (hactions : p.actions = .observed f note)
    (h : p.Course scanner goal m acts q) :
    ∃ forest symbols calls, Forest.Evaluates p.tables f 1 bottom forest symbols calls ∧
      (Forest.leaves forest).flatMap Leaf.tokens = acts.filterMap Act.token? ∧
      calls.map Prod.fst = acts.filterMap Act.rule? ∧
      q.configuration.memory = calls.foldl (fun memory call => note call.1 call.2 memory) m ∧
      match q with
      | .running _ c => c.stack.symbols.toList = bottom :: symbols ∧ Forest.acts forest = acts
      | .finished (.ok value) c => Forest.acts forest = acts ∧
          ((c.stack.symbols.toList = bottom :: symbols ∧
              value = (symbols.getLastD bottom).value) ∨
            ∃ trees rule children below x, forest = trees ++ [.node rule children] ∧
              symbols = below ++ [x] ∧ c.stack.symbols.toList = bottom :: below ∧
              value = x.value)
      | .finished (.error _) c => c.stack.symbols.toList = bottom :: symbols ∧
          (Forest.acts forest = acts ∨ ∃ x, Forest.acts forest = acts ++ [.phrase x]) := by
  cases h.stands hactions with
  | running hderives =>
    obtain ⟨forest, symbols, calls, hstack, hevaluates, rfl, hmemory⟩ := hderives
    exact ⟨forest, symbols, calls, hevaluates, Forest.tokens_leaves forest, hevaluates.rules,
      hmemory, hstack, rfl⟩
  | accepted hderives hlast =>
    obtain ⟨forest, symbols, calls, hstack, hevaluates, rfl, hmemory⟩ := hderives
    refine ⟨forest, symbols, calls, hevaluates, Forest.tokens_leaves forest, hevaluates.rules,
      hmemory, rfl, .inl ⟨hstack, ?_⟩⟩
    rw [hstack, List.getLast?_cons, Option.some_inj] at hlast
    rw [← hlast, List.getLastD_eq_getLast?]
  | gotoAccepted hacts hderives =>
    obtain ⟨forest, symbols, calls, hstack, hevaluates, rfl, hmemory⟩ := hderives
    -- The last node stands for the whole input. Its symbol is not on the stack any more.
    obtain ⟨trees, children, rfl⟩ := Forest.exists_node hacts
    obtain ⟨below, x, rfl⟩ : ∃ below x, symbols = below ++ [x] := by
      rcases List.eq_nil_or_concat symbols with rfl | ⟨below, x, rfl⟩
      · simpa using hevaluates.length_eq
      · exact ⟨below, x, List.concat_eq_append⟩
    rw [← List.cons_append] at hstack
    obtain ⟨hbelow, hx⟩ := List.append_inj' hstack rfl
    cases hx
    exact ⟨_, _, calls, hevaluates, Forest.tokens_leaves _, hevaluates.rules, hmemory, rfl,
      .inr ⟨trees, _, children, below, _, rfl, rfl, hbelow, rfl⟩⟩
  | failed hderives =>
    obtain ⟨forest, symbols, calls, hstack, hevaluates, rfl, hmemory⟩ := hderives
    exact ⟨forest, symbols, calls, hevaluates, Forest.tokens_leaves forest, hevaluates.rules,
      hmemory, hstack, .inl rfl⟩
  | abandoned hderives =>
    -- The phrase stands on the stack, but the step that has put it there fails.
    obtain ⟨forest, symbols, calls, hstack, hevaluates, hacts, hmemory⟩ := hderives
    refine ⟨forest, symbols, calls, hevaluates, ?_, ?_, hmemory, hstack, .inr ⟨_, hacts⟩⟩
    · rw [Forest.tokens_leaves, hacts]
      simp [Act.token?]
    · rw [hevaluates.rules, hacts]
      simp [Act.rule?]

/-- Tables for a letter, or an error phrase in its place, behind a head that is always empty: rules
`0` and `1` produce symbol `2` from the head and the letter or the phrase, and rule `2` produces the
head, symbol `3`, from nothing. The error symbol is `4`. -/
def headedTables : PackedTables where
  parts :=
    { codes := #[-3, 2, -1, -2, 3, -4, 1]
      owners := #[1, 1, 0, 0, 4, 2, 3]
      actionOffsets := #[-1, 0, 2, 3]
      gotoOffsets := #[3, 0, Tables.unusedOffset, Tables.unusedOffset]
      defaults := #[]
      rules := #[.pack 2 2, .pack 2 2, .pack 3 0]
      terminalCount := 2
      symbolCount := 5
      errorSymbol := some 4
      compressed := false }
  sound := by decide +kernel

/-- A parser with these tables that counts the symbols of a right-hand side. Its memory is the
rules that it has been called for. -/
def headedParser : Parser (List RuleId) Nat :=
  ⟨headedTables,
    .observed (fun _ args => .ok (some args.length)) fun rule _ rules => rules ++ [rule],
    .standard, 12⟩

def wideLetter (start stop : UInt32) : Symbol Nat := .empty 1 ⟨start⟩ ⟨stop⟩

def wideLetters : List (Symbol Nat) := [wideLetter 0 2, wideLetter 3 5, wideLetter 6 8]

/-- The phrase in the place of all of them. -/
def widePhrase : Symbol Nat := .empty 4 ⟨0⟩ ⟨8⟩

/-- The acts of a parse of these letters. Only the first one is shifted, and it is unwound for the
phrase. -/
def headedActs : List (Act Nat) :=
  [.reduce 2, .shift (wideLetter 0 2), .phrase widePhrase, .reduce 1]

/-- Behind the head and a letter two more are a syntax error, and the phrase in their place is
accepted. -/
theorem exists_course_headed : ∃ c,
    headedParser.Course (.ofTokens wideLetters) none [] headedActs
      (.finished (.ok (some 2)) c) := by
  obtain ⟨q, hstart, hmemory, hacts, hruns⟩ : ∃ q,
      headedParser.Starts (.ofTokens wideLetters) none q ∧
      q.configuration.memory = [] ∧ headedParser.actsFrom 10 q = headedActs ∧
      (headedParser.run 10 q).toOption.any (fun o => match o.result with
        | .ok value => decide (value = some 2)
        | .error _ => false) = true :=
    ⟨_, @Starts.parse _ _ headedParser _ _ [] _ rfl rfl, rfl, by decide +kernel, by decide +kernel⟩
  obtain ⟨o, hrun, hresult⟩ := exists_ok_of_any hruns
  obtain ⟨c, hcourse⟩ := (Course.start hstart hmemory).run hrun
  rw [List.nil_append, hacts] at hcourse
  cases hvalue : o.result with
  | error e =>
    rw [hvalue] at hresult
    cases hresult
  | ok value =>
    rw [hvalue] at hresult hcourse
    obtain rfl := of_decide_eq_true hresult
    exact ⟨c, hcourse⟩

/-- The head is reduced from nothing, the letter is unwound for the phrase, and the phrase is
accepted behind the head. The function has been called for the two rules, and not in recovery. -/
theorem stack_is_derivation_headed : ∃ c forest symbols calls,
    headedParser.Course (.ofTokens wideLetters) none [] headedActs
      (.finished (.ok (some 2)) c) ∧
    Forest.Evaluates headedTables (fun _ args => .ok (some args.length)) 1 bottom forest symbols
      calls ∧
    Forest.acts forest = headedActs ∧
    (Forest.leaves forest).flatMap Leaf.tokens = [wideLetter 0 2] ∧
    calls.map Prod.fst = [2, 1] ∧
    c.memory = calls.foldl (fun rules call => rules ++ [call.1]) [] := by
  obtain ⟨c, hcourse⟩ := exists_course_headed
  obtain ⟨forest, symbols, calls, hevaluates, htokens, hrules, hmemory, hacts, -⟩ :=
    stack_is_derivation rfl hcourse
  exact ⟨c, forest, symbols, calls, hcourse, hevaluates, hacts, htokens, hrules, hmemory⟩

end ShiftReduce.Parser
