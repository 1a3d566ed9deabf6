import ShiftReduce.Proofs.Parser.Steps
import ShiftReduce.Proofs.Recovery.Counters

/-!
# What a step has done

A step within the contract has shifted, reduced, accepted or repaired. Here it is told what
this has done to the symbols on the stack, to the memory of the actions and to the repairs
that are told.

* `reduce_eq_ok`: a reduction puts what it produces in the place of a right-hand side.
* `exists_commits`: a repair is one that is prescribed.
* `repair_cases`: how an error is dealt with, and `repair_counts`: what it counts.
-/

namespace ShiftReduce.Parser

open ShiftReduce.Configuration

variable {σ V : Type} {p : Parser σ V} {memory : σ} {fuel : Nat} {c c' : Configuration σ V}
  {token x : Symbol V} {q : Progress σ V} {rule : RuleId} {scanner : Scanner V}
  {goal : Option SymbolId}

/-! ## Starting -/

theorem readToken_memory (h : c.readToken = .ok q) : q.configuration.memory = c.memory := by
  obtain ⟨d, -, h⟩ := bind_eq_ok.mp h
  dsimp only at h
  split at h
  · cases h
    rfl
  · cases h
    rfl

theorem initial_symbols (stream : TokenStream V) (memory : σ) :
    (Configuration.initial stream memory).stack.symbols.toList = [.empty eof .zero .zero] := by
  rw [ParseStack.toList_symbols]
  rfl

/-- A parse starts with the reading of a token. -/
theorem Starts.exists_read (h : p.Starts scanner goal q) :
    ∃ stream memory, (Configuration.initial stream memory).readToken = .ok q := by
  cases h with
  | parse _ hread => exact ⟨_, _, hread⟩
  | parseGoal _ _ hread => exact ⟨_, _, hread⟩

/-! ## Shifting and reducing -/

theorem shifted_symbols (p : Parser σ V) (target : StateId) (token : Symbol V)
    (c : Configuration σ V) :
    (p.shifted target token c).stack.symbols.toList = c.stack.symbols.toList ++ [token] := by
  rw [shifted, push_stack, ParseStack.toList_symbols_push, count_stack, trace_stack]

theorem shifted_memory (p : Parser σ V) (target : StateId) (token : Symbol V)
    (c : Configuration σ V) : (p.shifted target token c).memory = c.memory := by
  rw [shifted, push_memory, count_memory, trace_memory]

theorem reduced_symbols (p : Parser σ V) (rule : RuleId) (info : Rule) (memory : σ)
    (c : Configuration σ V) : (p.reduced rule info memory c).stack.symbols.toList =
      c.stack.symbols.toList.take (c.stack.depth - info.length) := by
  rw [reduced, trace_stack, count_stack, ParseStack.toList_symbols_truncate]

theorem reduced_memory (p : Parser σ V) (rule : RuleId) (info : Rule) (memory : σ)
    (c : Configuration σ V) : (p.reduced rule info memory c).memory = memory := by
  rw [reduced, trace_memory, count_memory]

/-- The symbol that is produced, in terms of lists. -/
theorem produced_eq (info : Rule) (ys : List (Symbol V)) (offset : Nat) (below : Symbol V)
    (value : Option V) : produced info ⟨ys.toArray, offset⟩ below value =
      ⟨info.lhs, (ys.head?.map Symbol.start).getD below.stop,
        (ys.getLast?.map Symbol.stop).getD below.stop, value⟩ := by
  simp [produced, Args.start?, Args.stop?, List.head?_eq_getElem?]

/-- A reduction within the contract takes a right-hand side off the stack, asks the actions for
a value, and follows a goto with the symbol that it produces. -/
theorem reduce_eq_ok (h : p.reduce rule token c = .ok q) :
    ∃ info xs ys below value memory, p.tables.rule rule = .ok info ∧
      c.stack.symbols.toList = xs ++ ys ∧ ys.length = info.length ∧
      xs.getLast? = some below ∧
      p.actions.reduce rule ⟨ys.toArray, xs.length - 1⟩ c.memory = .ok (value, memory) ∧
      (p.reduced rule info memory c).stack.symbols.toList = xs ∧
      ∃ base, p.follow base token
        ⟨info.lhs, (ys.head?.map Symbol.start).getD below.stop,
          (ys.getLast?.map Symbol.stop).getD below.stop, value⟩
        (p.reduced rule info memory c) = .ok q := by
  obtain ⟨info, hrule, h⟩ := bind_eq_ok.mp h
  dsimp only at h
  split at h
  · cases h
  · rename_i hlength
    rw [Nat.not_le] at hlength
    obtain ⟨below, hbelow, h⟩ := bind_eq_ok.mp h
    obtain ⟨symbols, hsymbols, h⟩ := bind_eq_ok.mp h
    obtain ⟨⟨value, memory⟩, hvalue, h⟩ := bind_eq_ok.mp h
    obtain ⟨base, -, h⟩ := bind_eq_ok.mp h
    have hfollow : p.follow base token (produced info
        ⟨symbols, c.stack.depth - info.length - 1⟩ below value)
        (p.reduced rule info memory c) = .ok q := h
    obtain rfl := ParseStack.symbolsFrom_eq_ok hsymbols
    rw [ParseStack.symbol_eq_ok] at hbelow
    have hdepth : c.stack.symbols.toList.length = c.stack.depth := c.stack.size_symbols
    -- What the rule takes off the stack, and what it leaves there.
    obtain ⟨xs, ys, hsplit, hxs, hys⟩ : ∃ xs ys, c.stack.symbols.toList = xs ++ ys ∧
        xs.length = c.stack.depth - info.length ∧ ys.length = info.length :=
      ⟨_, _, (List.take_append_drop (c.stack.depth - info.length) _).symm,
        by rw [List.length_take, hdepth]; omega, by rw [List.length_drop, hdepth]; omega⟩
    have hstack := reduced_symbols p rule info memory c
    rw [hsplit, ← hxs, List.take_left] at hstack
    rw [hsplit, ← hxs, List.drop_left] at hvalue
    rw [hsplit, ← hxs, List.getElem?_append_left (by omega), ← List.getLast?_eq_getElem?] at hbelow
    rw [hsplit, ← hxs, List.drop_left, produced_eq] at hfollow
    exact ⟨info, xs, ys, below, value, memory, hrule, hsplit, hys, hbelow, hvalue, hstack, base,
      hfollow⟩

/-- Following a goto within the contract pushes the symbol or accepts it. -/
theorem follow_eq_ok {base : StateId} (h : p.follow base token x c = .ok q) :
    (∃ target, q = .running token (c.push target x)) ∨
      q = .finished (.ok x.value) (c.trace p .accept) := by
  obtain ⟨found, -, h⟩ := bind_eq_ok.mp h
  cases found with
  | shift target =>
    cases h
    exact .inl ⟨target, rfl⟩
  | accept =>
    cases h
    exact .inr rfl
  | reduce other => cases h
  | error => cases h

/-! ## Repairing -/

theorem exists_impasse {entry : Entry V} (htop : c.stack.top = .ok entry) (token : Symbol V) :
    ∃ i : Impasse V, i.top = entry ∧ i.token = token ∧ c.stack.topDown = i.stack ∧
      c.stream.pending = i.rest := by
  rw [ParseStack.top_eq_ok, List.head?_eq_some_iff] at htop
  obtain ⟨below, htop⟩ := htop
  exact ⟨⟨entry, below, token, c.stream.pending⟩, rfl, rfl, htop, rfl⟩

/-- A parse that is repaired is at an impasse, and it goes on as is prescribed for that. -/
theorem exists_commits {entry : Entry V} (htop : c.stack.top = .ok entry)
    (hact : p.tables.action entry.state token.id = .ok .error)
    (hrecover : Recovery.recover p fuel token c = .ok (.repaired c')) :
    ∃ (i : Impasse V) (P : Proposal V), i.top = entry ∧ i.token = token ∧
      c.stack.topDown = i.stack ∧ c.stream.pending = i.rest ∧
      Prescribed p.tables (max c.stream.window 1) i (.repaired P) ∧ Recovery.Commits c P c' := by
  have heof : token.id ≠ eof := by
    intro heof
    rw [Recovery.recover_of_eof p fuel _ heof] at hrecover
    cases hrecover
  obtain ⟨i, rfl, rfl, hstack, hrest⟩ := exists_impasse htop token
  obtain ⟨hresolves, -⟩ := Recovery.recover_spec hrecover hstack hrest heof hact
  cases hresolves with
  | repaired ho hc => exact ⟨i, _, rfl, rfl, hstack, hrest, ho, hc⟩

/-- Where recovery gives up, no repair is told. -/
theorem repairs_of_aborted {entry : Entry V} {e : ParseError} (htop : c.stack.top = .ok entry)
    (hact : p.tables.action entry.state token.id = .ok .error)
    (hrecover : Recovery.recover p fuel token c = .ok (.aborted e c')) :
    c'.repairs = c.repairs := by
  by_cases heof : token.id = eof
  · rw [Recovery.recover_of_eof p fuel _ heof] at hrecover
    cases hrecover
    rfl
  · obtain ⟨i, rfl, rfl, hstack, hrest⟩ := exists_impasse htop token
    obtain ⟨hresolves, -⟩ := Recovery.recover_spec hrecover hstack hrest heof hact
    cases hresolves with
    | givenUp _ hrepairs => exact hrepairs
    | fault hrepairs => exact hrepairs

/-- How an error is dealt with. -/
theorem repair_cases (h : p.repair fuel token c = .ok q) :
    (∃ reason position,
        q = .finished (.error (.unrecoverable reason position)) (c.reported token)) ∨
      (∃ e c', Recovery.recover p fuel token (c.reported token) = .ok (.aborted e c') ∧
        q = .finished (.error e) c') ∨
      ∃ c', c.stats.syntaxErrors < p.settings.maxErrors ∧
        Recovery.recover p fuel token (c.reported token) = .ok (.repaired c') ∧
        (c'.count fun stats =>
          { stats with errorsRecovered := stats.errorsRecovered + 1 }).readToken = .ok q := by
  unfold repair at h
  split at h
  · cases h
    exact .inl ⟨_, _, rfl⟩
  · dsimp only at h
    split at h
    · cases h
      exact .inl ⟨_, _, rfl⟩
    · rename_i hfew
      obtain ⟨r, hrecover, h⟩ := bind_eq_ok.mp h
      cases r with
      | aborted e c' =>
        cases h
        exact .inr (.inl ⟨e, c', hrecover, rfl⟩)
      | repaired c' =>
        exact .inr (.inr ⟨c', Nat.not_lt.mp hfew, hrecover, liftM_eq_ok.mp h⟩)

/-- A repair counts one syntax error, and it shifts nothing. -/
theorem repair_counts (h : p.repair fuel token c = .ok q) :
    q.configuration.stats.syntaxErrors = c.stats.syntaxErrors + 1 ∧
      q.configuration.stats.tokensShifted = c.stats.tokensShifted := by
  rcases repair_cases h with ⟨_, _, rfl⟩ | ⟨e, c', hrecover, rfl⟩ |
    ⟨c', -, hrecover, hread⟩
  · exact ⟨rfl, rfl⟩
  · have hcounts := Recovery.recover_counts hrecover
    exact ⟨hcounts.syntaxErrors_eq, hcounts.tokensShifted_eq⟩
  · have hcounts := Recovery.recover_counts hrecover
    rw [(readToken_spec hread).stats_eq]
    exact ⟨hcounts.syntaxErrors_eq, hcounts.tokensShifted_eq⟩

end ShiftReduce.Parser
