import ShiftReduce.Proofs.Parser.Acts
import ShiftReduce.Proofs.Stream.Spans

/-!
# Spans through a parse

The symbols on the stack, the current token and the tokens to come stay in the order of the
source, through reductions and through repairs.

* `Placed`: where a repair stands between the stack and the tokens to come.
* `Prescribed.placed`: a repair that is prescribed has such a place.
* `Placed.inOrder`: a repair in its place keeps the order.
* `aligned_of_step`: a step keeps the order, and `told_of_step`: it tells no repair but one
  in its place.
-/

namespace ShiftReduce

variable {σ V : Type} {p : Parser σ V} {t : PackedTables} {fuel w : Nat}
  {c c' : Configuration σ V} {q q' : Progress σ V} {token x : Symbol V} {notice : Notice V}
  {i : Impasse V} {P : Proposal V} {rule : RuleId} {scanner : Scanner V} {goal : Option SymbolId}
  {stack stack' kept unwound discarded : List (Symbol V)} {rest input' : Stream' (Symbol V)}

/-! ## Where repairs stand -/

/-- A repair that is told, in its place between a stack, bottom first, and the offending token.
It leaves another stack and the tokens to go on with. -/
inductive Placed (stack : List (Symbol V)) (token : Symbol V) (rest : Stream' (Symbol V))
    (stack' : List (Symbol V)) (input' : Stream' (Symbol V)) : Notice V → Prop
  /-- A missing token is empty, at the end of the symbol below. -/
  | inserted {below x : Symbol V} : stack.getLast? = some below → x.start = below.stop →
      x.stop = below.stop → stack' = stack → input' = Stream'.cons x (Stream'.cons token rest) →
      Placed stack token rest stack' input' (.inserted x)
  /-- Another id leaves the span as it is. -/
  | replaced {x : Symbol V} : x.start = token.start → x.stop = token.stop → stack' = stack →
      input' = Stream'.cons x rest → Placed stack token rest stack' input' (.replaced x)
  | removed : stack' = stack → input' = rest →
      Placed stack token rest stack' input' (.removed token)
  /-- An error phrase covers all that was unwound and discarded for it. -/
  | phraseRemoved {kept unwound discarded : List (Symbol V)} {x : Symbol V} :
      stack = kept ++ unwound → Stream'.cons token rest = discarded ++ₛ input' →
      stack' = kept ++ [x] →
      x.start = (unwound.head?.map Symbol.start).getD token.start →
      x.stop = (discarded.getLast?.map Symbol.stop).getD
        ((unwound.getLast?.map Symbol.stop).getD x.start) →
      (∀ y ∈ unwound ++ discarded, x.Covers y) →
      Placed stack token rest stack' input' (.phraseRemoved x)

/-- The span of a phrase, in terms of all that it stands for. -/
theorem phrase_span (hinput : Stream'.cons token rest = discarded ++ₛ input')
    (hstart : x.start = (unwound.head?.map Symbol.start).getD token.start)
    (hstop : x.stop = (discarded.getLast?.map Symbol.stop).getD
      ((unwound.getLast?.map Symbol.stop).getD x.start)) :
    x.start = ((unwound ++ discarded).head?.map Symbol.start).getD token.start ∧
      x.stop = ((unwound ++ discarded).getLast?.map Symbol.stop).getD token.start := by
  constructor
  · cases unwound with
    | cons first unwound => exact hstart
    | nil =>
      cases discarded with
      | nil => exact hstart
      | cons first discarded =>
        have hfirst : token = first := congrFun hinput 0
        rw [hstart, hfirst]
        rfl
  · rw [List.getLast?_append, hstop]
    cases hdiscarded : discarded.getLast? with
    | some last => rfl
    | none =>
      cases hunwound : unwound.getLast? with
      | some last => rfl
      | none =>
        rw [List.getLast?_eq_none_iff] at hunwound
        rw [hunwound] at hstart
        exact hstart

/-! ## Repairs that are prescribed -/

/-- The symbols of entries, bottom first. -/
def upward (entries : List (Entry V)) : List (Symbol V) := (entries.map Entry.symbol).reverse

theorem upward_cons (entry : Entry V) (entries : List (Entry V)) :
    upward (entry :: entries) = upward entries ++ [entry.symbol] := by
  rw [upward, List.map_cons, List.reverse_cons, upward]

theorem upward_append (above below : List (Entry V)) :
    upward (above ++ below) = upward below ++ upward above := by
  rw [upward, List.map_append, List.reverse_append, upward, upward]

theorem head?_upward (entries : List (Entry V)) :
    (upward entries).head? = entries.getLast?.map Entry.symbol := by
  rw [upward, List.head?_reverse, List.getLast?_map]

theorem getLast?_upward (entries : List (Entry V)) :
    (upward entries).getLast? = entries.head?.map Entry.symbol := by
  rw [upward, List.getLast?_reverse, List.head?_map]

theorem widened_start (phrase : Symbol V) (input : Stream' (Symbol V)) (k : Nat) :
    (widened phrase input k).start = phrase.start := by
  cases k <;> rfl

theorem widened_stop (phrase : Symbol V) (input : Stream' (Symbol V)) (k : Nat) :
    (widened phrase input k).stop = ((input.take k).getLast?.map Symbol.stop).getD phrase.stop := by
  cases k with
  | zero => rfl
  | succ k =>
    rw [Stream'.take_succ', List.getLast?_concat]
    rfl

theorem Impasse.phrase_start (t : PackedTables) (i : Impasse V) (error : SymbolId) :
    (i.phrase t error).start =
      ((upward (i.unwound t error)).head?.map Symbol.start).getD i.token.start := by
  rw [head?_upward, Option.map_map]
  rfl

theorem Impasse.phrase_stop (t : PackedTables) (i : Impasse V) (error : SymbolId) :
    (i.phrase t error).stop =
      ((upward (i.unwound t error)).getLast?.map Symbol.stop).getD (i.phrase t error).start := by
  rw [getLast?_upward, Option.map_map, phrase, Symbol.empty]
  dsimp only
  cases i.unwound t error with
  | nil => rfl
  | cons entry entries => rfl

/-- A phrase in the place of entries and tokens in order covers them all. -/
theorem placed_phrase {error : SymbolId} {kept : List (Entry V)} {target : StateId}
    (hkept : i.kept t error = kept) (horder : InOrder (upward i.stack ++ₛ i.input)) (k : Nat) :
    Placed (upward i.stack) i.token i.rest
      (upward (Proposal.phrase target kept (i.phrase t error) i.input k).stack)
      (i.input.drop k) (.phraseRemoved (widened (i.phrase t error) i.input k)) := by
  have hstack : upward i.stack = upward kept ++ upward (i.unwound t error) := by
    rw [← upward_append, ← hkept, i.unwound_append_kept]
  have hinput : Stream'.cons i.token i.rest = i.input.take k ++ₛ i.input.drop k :=
    (Stream'.append_take_drop k i.input).symm
  have hstart := (widened_start (i.phrase t error) i.input k).trans (i.phrase_start t error)
  have hstop := widened_stop (i.phrase t error) i.input k
  rw [i.phrase_stop t error, ← widened_start (i.phrase t error) i.input k] at hstop
  refine .phraseRemoved hstack hinput (upward_cons _ _) hstart hstop ?_
  obtain ⟨hstart', hstop'⟩ := phrase_span hinput hstart hstop
  have hspaced : Spaced (upward (i.unwound t error) ++ i.input.take k) := by
    rw [hstack, show i.input = _ from hinput, Stream'.append_append_stream,
      ← Stream'.append_append_stream (upward (i.unwound t error))] at horder
    exact (inOrder_append.mp (inOrder_append.mp horder).2.2).1
  exact hspaced.covers hstart' hstop'

/-- A repair that is prescribed has its place. -/
theorem Prescribed.placed (h : Prescribed t w i (.repaired P))
    (horder : InOrder (upward i.stack ++ₛ i.input)) :
    Placed (upward i.stack) i.token i.rest (upward P.stack) P.input P.notice := by
  cases h with
  | edit hP =>
    have hmem := hP.mem
    simp only [Impasse.edits, List.mem_append, List.mem_map, List.mem_singleton] at hmem
    rcases hmem with (⟨id, -, rfl⟩ | ⟨id, -, rfl⟩) | rfl
    · exact .inserted (getLast?_upward i.stack) rfl rfl rfl rfl
    · exact .replaced rfl rfl rfl rfl
    · exact .removed rfl rfl
  | phrase _ _ hkept _ hwidens =>
    cases hwidens with
    | repaired _ _ => exact placed_phrase hkept horder _

/-- A repair in its place keeps the order. -/
theorem Placed.inOrder (h : Placed stack token rest stack' input' notice)
    (horder : InOrder (stack ++ₛ Stream'.cons token rest)) : InOrder (stack' ++ₛ input') := by
  cases h with
  | @inserted below x hbelow hstart hstop hstack hinput =>
    rw [hstack, hinput]
    obtain ⟨-, hmeet, -⟩ := inOrder_append.mp horder
    have hnone : InOrder (stack ++ₛ ([] ++ₛ Stream'.cons token rest)) := horder
    refine hnone.collapse below.stop hstart hstop fun _ => ⟨?_, hmeet below hbelow⟩
    rw [hbelow]
    rintro _ ⟨⟩
    exact Position.le_refl _
  | replaced hstart hstop hstack hinput =>
    rw [hstack, hinput]
    have hone : InOrder (stack ++ₛ ([token] ++ₛ rest)) := horder
    exact hone.collapse token.start hstart hstop nofun
  | removed hstack hinput =>
    rw [hstack, hinput]
    obtain ⟨hspaced, hmeet, hcons⟩ := inOrder_append.mp horder
    obtain ⟨hspan, hnext, hrest⟩ := inOrder_cons.mp hcons
    refine inOrder_append.mpr ⟨hspaced, ?_, hrest⟩
    intro below hbelow
    exact Position.le_trans (hmeet below hbelow) (Position.le_trans hspan hnext)
  | @phraseRemoved kept unwound discarded x hstack hinput hstack' hstart hstop _ =>
    obtain ⟨hstart', hstop'⟩ := phrase_span hinput hstart hstop
    rw [hstack, hinput, Stream'.append_append_stream,
      ← Stream'.append_append_stream unwound] at horder
    rw [hstack', Stream'.append_append_stream, Stream'.cons_append_stream,
      Stream'.nil_append_stream]
    refine horder.collapse token.start hstart' hstop' ?_
    -- A phrase that stands for nothing is empty in front of the offending token.
    intro hnothing
    obtain ⟨rfl, rfl⟩ := List.append_eq_nil_iff.mp hnothing
    have hhead : input'.get 0 = token := (congrFun hinput 0).symm
    obtain ⟨-, hmeet, -⟩ := inOrder_append.mp horder
    rw [List.nil_append, Stream'.nil_append_stream, hhead] at hmeet
    rw [hhead]
    exact ⟨hmeet, Position.le_refl _⟩

namespace Parser

/-! ## Steps -/

/-- A parse that goes on has its symbols in the order of the source: those on the stack,
bottom first, the current token, and those to come. -/
def Aligned : Progress σ V → Prop
  | .running token c => InOrder (c.stack.symbols.toList ++ₛ Stream'.cons token c.stream.pending)
  | .finished _ _ => True

/-- What a step tells about repairs: nothing, or one repair in its place. -/
inductive Told (token : Symbol V) (c : Configuration σ V) (q : Progress σ V) : Prop
  | nothing : q.configuration.repairs = c.repairs → Told token c q
  | repair {notice : Notice V} {input' : Stream' (Symbol V)} :
      q.configuration.repairs = c.repairs ++ [notice] →
      Placed c.stack.symbols.toList token c.stream.pending q.configuration.stack.symbols.toList
        input' notice →
      (∀ token' c', q = .running token' c' → input' = Stream'.cons token' c'.stream.pending) →
      Told token c q

/-- Reading a token leaves the sequence of symbols as it is. -/
theorem aligned_of_read (h : InOrder (c.stack.symbols.toList ++ₛ c.stream.pending))
    (hread : c.readToken = .ok q) : Aligned q := by
  have hreads := Configuration.readToken_spec hread
  cases q with
  | finished result c' => trivial
  | running token c' =>
    have hstack : c'.stack = c.stack := hreads.stack_eq
    rw [hreads.pending_eq token c' rfl, ← hstack] at h
    exact h

/-- A left-hand side covers its right-hand side. Where this is empty, it is empty at the end of
the symbol below. -/
theorem aligned_of_reduce (h : Aligned (.running token c))
    (hreduce : p.reduce rule token c = .ok q) :
    Aligned q ∧ q.configuration.repairs = c.repairs := by
  obtain ⟨info, xs, ys, below, value, memory, -, hsplit, -, hbelow, -, hstack, base, hfollow⟩ :=
    reduce_eq_ok hreduce
  rcases follow_eq_ok hfollow with ⟨target, rfl⟩ | rfl
  · have horder : InOrder (xs ++ₛ (ys ++ₛ Stream'.cons token c.stream.pending)) := by
      rw [← Stream'.append_append_stream, ← hsplit]
      exact h
    refine ⟨?_, ?_⟩
    · show InOrder ((_ : ParseStack V).symbols.toList ++ₛ Stream'.cons token _)
      rw [Configuration.push_stack, ParseStack.toList_symbols_push, hstack,
        Configuration.push_stream, reduced_stream, Stream'.append_append_stream]
      refine horder.collapse below.stop rfl rfl ?_
      rintro rfl
      obtain ⟨-, hmeet, -⟩ := inOrder_append.mp horder
      refine ⟨?_, hmeet below hbelow⟩
      rw [hbelow]
      rintro _ ⟨⟩
      exact Position.le_refl _
    · rw [Progress.configuration_running, Configuration.repairs_push, repairs_reduced]
  · refine ⟨trivial, ?_⟩
    rw [Progress.configuration_finished, Configuration.repairs_trace, repairs_reduced]

/-- A repair is told in its place. -/
theorem told_of_repair {entry : Entry V} (htop : c.stack.top = .ok entry)
    (hact : p.tables.action entry.state token.id = .ok .error) (h : Aligned (.running token c))
    (hrepair : p.repair fuel token c = .ok q) : Aligned q ∧ Told token c q := by
  have htop' : (c.reported token).stack.top = .ok entry := htop
  have hreported := Configuration.repairs_reported token c
  rcases repair_cases hrepair with ⟨_, _, rfl⟩ | ⟨e, c', hrecover, rfl⟩ |
    ⟨c', -, hrecover, hread⟩
  · exact ⟨trivial, .nothing hreported⟩
  · exact ⟨trivial, .nothing ((repairs_of_aborted htop' hact hrecover).trans hreported)⟩
  · obtain ⟨i, P, -, rfl, hstack, hrest, ho, hc⟩ := exists_commits htop' hact hrecover
    have hreads := Configuration.readToken_spec hread
    -- The edit is seen on the two stacks, the one at the error and the one it leaves.
    have hbefore : c.stack.symbols.toList = upward i.stack := by
      rw [ParseStack.toList_symbols, ← hstack]
      rfl
    have hafter : c'.stack.symbols.toList = upward P.stack := by
      rw [ParseStack.toList_symbols, ← hc.stack]
      rfl
    have hpending : c.stream.pending = i.rest := hrest
    have horder : InOrder (upward i.stack ++ₛ Stream'.cons i.token i.rest) := by
      rw [← hbefore, ← hpending]
      exact h
    have hplaced := ho.placed horder
    constructor
    · refine aligned_of_read ?_ hread
      rw [Configuration.count_stack, Configuration.count_stream, hafter, hc.pending]
      exact hplaced.inOrder horder
    · have hrepairs : q.configuration.repairs = c.repairs ++ [P.notice] := by
        rw [hreads.repairs_eq, Configuration.repairs_count, hc.repairs, hreported]
      have hplaced' : Placed c.stack.symbols.toList i.token c.stream.pending
          q.configuration.stack.symbols.toList P.input P.notice := by
        rw [hreads.stack_eq, Configuration.count_stack, hbefore, hafter, hpending]
        exact hplaced
      refine .repair hrepairs hplaced' ?_
      intro token' c'' hq
      rw [← hreads.pending_eq token' c'' hq]
      exact hc.pending.symm

/-- A step keeps the order, and it tells no repair but one in its place. -/
theorem told_of_step (h : Aligned (.running token c)) (hstep : p.step fuel token c = .ok q) :
    Aligned q ∧ Told token c q := by
  obtain ⟨entry, action, htop, hact, hdone⟩ := exists_act hstep
  cases action with
  | shift target =>
    have hread := liftM_eq_ok.mp hdone
    have hreads := Configuration.readToken_spec hread
    refine ⟨aligned_of_read ?_ hread, .nothing (hreads.repairs_eq.trans (repairs_shifted _ _ _ _))⟩
    rw [shifted_symbols, shifted_stream, Stream'.append_append_stream]
    exact h
  | reduce rule =>
    obtain ⟨haligned, hrepairs⟩ := aligned_of_reduce h (liftM_eq_ok.mp hdone)
    exact ⟨haligned, .nothing hrepairs⟩
  | accept =>
    cases hdone
    exact ⟨trivial, .nothing (Configuration.repairs_trace _ _ _)⟩
  | error => exact told_of_repair htop hact h hdone

/-! ## Runs -/

theorem Aligned.step (h : Aligned q) (hstep : p.Step q q') : Aligned q' := by
  cases hstep with
  | intro hstep => exact (told_of_step h hstep).1

theorem Aligned.reaches (h : Relation.ReflTransGen p.Step q q') (hq : Aligned q) : Aligned q' := by
  induction h with
  | refl => exact hq
  | tail _ hstep ih => exact ih.step hstep

/-- A parse of tokens in order starts in order. -/
theorem Starts.aligned {items : List (Except ScanError (Symbol V))}
    (hitems : Spaced (items.filterMap Except.toOption)) (h : p.Starts (.ofItems items) goal q) :
    Aligned q := by
  cases q with
  | finished result c => trivial
  | running token c =>
    obtain ⟨stream, memory, hread⟩ := h.exists_read
    have hstack : c.stack.symbols.toList = [.empty eof .zero .zero] := by
      rw [← initial_symbols stream memory, ← (Configuration.readToken_spec hread).stack_eq]
      rfl
    obtain ⟨hinput, -, -⟩ := h.running
    obtain ⟨htokens, hfirst⟩ := hitems.withEnd fun x _ => Position.zero_le x.start
    rw [inputOf, Scanner.yields_eq] at hinput
    show InOrder (c.stack.symbols.toList ++ₛ Stream'.cons token c.stream.pending)
    rw [hstack, ← hinput, Stream'.cons_append_stream, Stream'.nil_append_stream, inOrder_cons]
    refine ⟨Position.le_refl _, Position.zero_le _, ?_⟩
    cases goal with
    | none => exact htokens
    | some marker => exact inOrder_cons.mpr ⟨Position.le_refl _, hfirst, htokens⟩

/-- If the tokens of a scanner are in the order of the source, then at the head of each step
the symbols on the stack, the current token, those buffered and those that the scanner has
still to deliver are so, too. A step tells no repair but one in its place: a token that is
inserted is empty at the end of the symbol below it, and an error phrase covers the
entries that were unwound and the tokens that were discarded for it. -/
theorem spans_stay_ordered {items : List (Except ScanError (Symbol V))} {start : Progress σ V}
    (hitems : Spaced (items.filterMap Except.toOption))
    (hstart : p.Starts (.ofItems items) goal start)
    (hreach : Relation.ReflTransGen p.Step start (.running token c)) :
    InOrder (c.stack.symbols.toList ++ₛ Stream'.cons token (c.stream.buffered ++ₛ
        Scanner.withEnd c.stream.scanner.stop
          (c.stream.scanner.items.filterMap Except.toOption))) ∧
      ∀ fuel q, p.step fuel token c = .ok q → Told token c q := by
  have haligned : Aligned (.running token c) := .reaches hreach (hstart.aligned hitems)
  constructor
  · rw [← Scanner.yields_eq]
    exact haligned
  · intro fuel q hstep
    exact (told_of_step haligned hstep).2

/-- Tables for a single letter, or for an error phrase in its place: rule `0` produces symbol
`2` from terminal `1`, and rule `1` from the error symbol `3`. -/
def phraseTables : PackedTables where
  parts :=
    { codes := #[-3, 2, 1, -1, -2]
      owners := #[2, 3, 1, 0, 0]
      actionOffsets := #[1, 3, 4]
      gotoOffsets := #[-2, Tables.unusedOffset, Tables.unusedOffset]
      defaults := #[]
      rules := #[.pack 2 1, .pack 2 1]
      terminalCount := 2
      symbolCount := 4
      errorSymbol := some 3
      compressed := false }
  sound := by decide +kernel

def phraseParser : Parser Unit Unit := ⟨phraseTables, .nothing, .standard, 12⟩

def letterAt (start stop : UInt32) : Symbol Unit := .empty 1 ⟨start⟩ ⟨stop⟩

def letters : List (Except ScanError (Symbol Unit)) :=
  [.ok (letterAt 0 1), .ok (letterAt 2 3), .ok (letterAt 5 7)]

/-- Three letters are too many, and an error phrase takes the place of all of them. -/
theorem phraseParser_reaches_error : ∃ start c,
    phraseParser.Starts (.ofItems letters) none start ∧
    Relation.ReflTransGen phraseParser.Step start (.running (letterAt 2 3) c) ∧
    (phraseParser.step 10 (letterAt 2 3) c).toOption.any
      (fun q => decide (q.configuration.repairs = [.phraseRemoved (.empty 3 ⟨0⟩ ⟨7⟩)])) = true := by
  refine ⟨_, _, @Starts.parse _ _ phraseParser _ _ () _ rfl rfl,
    .single (@Step.intro _ _ phraseParser 10 _ _ _ rfl), ?_⟩
  decide +kernel

theorem spans_stay_ordered_letters : ∃ c q,
    InOrder (c.stack.symbols.toList ++ₛ Stream'.cons (letterAt 2 3) (c.stream.buffered ++ₛ
      Scanner.withEnd c.stream.scanner.stop
        (c.stream.scanner.items.filterMap Except.toOption))) ∧
      phraseParser.step 10 (letterAt 2 3) c = .ok q ∧ Told (letterAt 2 3) c q ∧
      q.configuration.repairs = [.phraseRemoved (.empty 3 ⟨0⟩ ⟨7⟩)] := by
  obtain ⟨start, c, hstart, hreach, hstep⟩ := phraseParser_reaches_error
  obtain ⟨q, hq, hrepairs⟩ := exists_ok_of_any hstep
  have hspaced : Spaced (letters.filterMap Except.toOption) := ⟨by decide, by decide⟩
  obtain ⟨horder, htold⟩ := spans_stay_ordered hspaced hstart hreach
  exact ⟨c, q, horder, hq, htold 10 q hq, of_decide_eq_true hrepairs⟩

end Parser

end ShiftReduce
