import Mathlib.Data.List.TakeWhile
import ShiftReduce.Proofs.Recovery.Telling

/-!
# Reading a log

What a parse has told can be read as it stands: which errors were repaired, how often the parser
has shifted, and how recovery has gone about an error. The statements here are of lists of
notices alone.

* `toldPairs`: syntax errors, each with its repair behind it.
* `Orderly`: behind each syntax error strategies were tried in order.
* `Orderly.append_moves` and `Orderly.append_error`: how an orderly log grows.
-/

namespace ShiftReduce

variable {σ V : Type} {p : Parser σ V} {log more before rest told : List (Notice V)}
  {token : Symbol V} {events : List TraceEvent} {tried : List Strategy} {strategy : Strategy}

namespace TraceEvent

def isShift : TraceEvent → Bool
  | shift _ _ => true
  | _ => false

def isReduction : TraceEvent → Bool
  | reduce _ _ _ => true
  | _ => false

def isSuccess (event : TraceEvent) : Bool := event.attempt?.any Prod.snd

end TraceEvent

namespace Notice

/-- How strategies have ended. -/
def attempts (ns : List (Notice V)) : List (Strategy × Bool) :=
  (traces ns).filterMap TraceEvent.attempt?

/-- What is told up to the next syntax error. -/
def untilError (ns : List (Notice V)) : List (Notice V) := ns.takeWhile fun n => !n.isSyntaxError

theorem traces_append (ns more : List (Notice V)) :
    traces (ns ++ more) = traces ns ++ traces more :=
  List.filterMap_append

theorem diagnostics_append (ns more : List (Notice V)) :
    diagnostics (ns ++ more) = diagnostics ns ++ diagnostics more :=
  List.filter_append ..

theorem attempts_append (ns more : List (Notice V)) :
    attempts (ns ++ more) = attempts ns ++ attempts more := by
  rw [attempts, traces_append, List.filterMap_append]
  rfl

/-- Reports are no traces. -/
theorem traces_eq_nil (h : ∀ n ∈ log, n.isTrace = false) : traces log = [] := by
  rw [traces, List.filterMap_eq_nil_iff]
  intro n hn
  simpa [isTrace] using h n hn

theorem diagnostics_eq_self (h : ∀ n ∈ log, n.isTrace = false) : diagnostics log = log := by
  rw [diagnostics, List.filter_eq_self]
  intro n hn
  simp [h n hn]

theorem not_isTrace_of_isRepair {n : Notice V} (h : n.isRepair = true) : n.isTrace = false := by
  cases n <;> first | rfl | cases h

theorem not_isSyntaxError_of_isRepair {n : Notice V} (h : n.isRepair = true) :
    n.isSyntaxError = false := by
  cases n <;> first | rfl | cases h

end Notice

namespace Parser

theorem mem_traced {n : Notice V} (h : n ∈ p.traced events) :
    ∃ event ∈ events, n = .trace event := by
  unfold traced at h
  split at h
  · obtain ⟨event, hevent, rfl⟩ := List.mem_map.mp h
    exact ⟨event, hevent, rfl⟩
  · cases h

/-- Traces report nothing. -/
theorem isRepair_of_mem_traced {n : Notice V} (h : n ∈ p.traced events) : n.isRepair = false := by
  obtain ⟨event, -, rfl⟩ := mem_traced h
  rfl

theorem diagnostics_traced (p : Parser σ V) (events : List TraceEvent) :
    Notice.diagnostics (p.traced events) = [] := by
  rw [Notice.diagnostics, List.filter_eq_nil_iff]
  intro n hn
  obtain ⟨event, -, rfl⟩ := mem_traced hn
  simp [Notice.isTrace, Notice.traced?]

theorem traces_traced (htrace : p.settings.trace = true) (events : List TraceEvent) :
    Notice.traces (p.traced events) = events := by
  rw [traced, if_pos htrace, Notice.traces, List.filterMap_map]
  exact List.filterMap_some

end Parser

/-! ## Errors and repairs -/

/-- Syntax errors, each with its repair behind it. -/
def toldPairs (pairs : List (Symbol V × Notice V)) : List (Notice V) :=
  pairs.flatMap fun pair => [.syntaxError pair.1, pair.2]

theorem toldPairs_concat (pairs : List (Symbol V × Notice V)) (token : Symbol V) (n : Notice V) :
    toldPairs (pairs ++ [(token, n)]) = toldPairs pairs ++ [.syntaxError token, n] := by
  simp [toldPairs]

theorem countP_toldPairs {pairs : List (Symbol V × Notice V)}
    (h : ∀ pair ∈ pairs, pair.2.isRepair = true) :
    (toldPairs pairs).countP Notice.isSyntaxError = pairs.length := by
  induction pairs with
  | nil => rfl
  | cons pair pairs ih =>
    have hrest := ih fun other hother => h other (List.mem_cons_of_mem _ hother)
    have hrepair := Notice.not_isSyntaxError_of_isRepair (h pair List.mem_cons_self)
    have hone : [.syntaxError pair.1, pair.2].countP Notice.isSyntaxError = 1 := by
      rw [List.countP_cons, List.countP_cons, hrepair]
      rfl
    rw [toldPairs, List.flatMap_cons, List.countP_append, hone, ← toldPairs, hrest,
      List.length_cons, Nat.add_comm]

/-- Behind errors that have all been repaired, no error stands last. -/
theorem getLast?_toldPairs {pairs : List (Symbol V × Notice V)}
    (h : ∀ pair ∈ pairs, pair.2.isRepair = true) (token : Symbol V) :
    (toldPairs pairs).getLast? ≠ some (.syntaxError token) := by
  rcases List.eq_nil_or_concat pairs with rfl | ⟨pairs, ⟨error, n⟩, rfl⟩
  · simp [toldPairs]
  · have hrepair : n.isRepair = true := h (error, n) (by simp)
    rw [List.concat_eq_append, toldPairs_concat]
    intro hlast
    simp only [List.getLast?_append, List.getLast?_cons_cons, List.getLast?_singleton,
      Option.some_or, Option.some.injEq] at hlast
    rw [hlast] at hrepair
    cases hrepair

/-- Syntax errors can be counted without the traces. -/
theorem countP_diagnostics (ns : List (Notice V)) :
    (Notice.diagnostics ns).countP Notice.isSyntaxError = ns.countP Notice.isSyntaxError := by
  rw [Notice.diagnostics, List.countP_filter]
  apply List.countP_congr
  intro n _
  cases n <;> simp [Notice.isTrace, Notice.traced?, Notice.isSyntaxError]

/-! ## Attempts at repairs -/

/-- Strategies have been tried in order, none of them twice. All have failed, but for the last
one if there was a repair. -/
structure TriedInOrder (attempts : List (Strategy × Bool)) (repaired : Bool) : Prop where
  order : (attempts.map Prod.fst).Sublist Recovery.allStrategies
  failed : ∀ attempt ∈ attempts.dropLast, attempt.2 = false
  last : attempts.getLast?.any Prod.snd = repaired

open Recovery in
/-- Strategies that have all failed. -/
theorem triedInOrder_failures (h : tried.Sublist allStrategies) :
    TriedInOrder (failures tried) false := by
  have hfailed : ∀ attempt ∈ failures tried, attempt.2 = false := by
    intro attempt hattempt
    obtain ⟨strategy, -, rfl⟩ := List.mem_map.mp hattempt
    rfl
  refine ⟨?_, fun attempt hattempt => hfailed _ (List.dropLast_subset _ hattempt), ?_⟩
  · rw [failures, List.map_map]
    exact (List.map_id tried).symm ▸ h
  · cases hlast : (failures tried).getLast? with
    | none => rfl
    | some attempt => exact hfailed _ (List.mem_of_getLast? hlast)

open Recovery in
/-- Strategies of which the last has succeeded. -/
theorem triedInOrder_success (h : (tried ++ [strategy]).Sublist allStrategies) :
    TriedInOrder (failures tried ++ [(strategy, true)]) true := by
  refine ⟨?_, ?_, ?_⟩
  · rw [failures, List.map_append, List.map_map]
    exact (List.map_id tried).symm ▸ h
  · intro attempt hattempt
    rw [List.dropLast_concat] at hattempt
    obtain ⟨strategy, -, rfl⟩ := List.mem_map.mp hattempt
    rfl
  · rw [List.getLast?_concat]
    rfl

/-- Behind each syntax error, up to the next one, strategies were tried in order, and the last of
them has succeeded if and only if a repair is told. -/
def Orderly (log : List (Notice V)) : Prop :=
  ∀ before token rest, log = before ++ .syntaxError token :: rest →
    TriedInOrder (Notice.attempts (Notice.untilError rest))
      ((Notice.untilError rest).any Notice.isRepair)

theorem orderly_nil : Orderly ([] : List (Notice V)) := by
  intro before token rest h
  simp at h

/-- A syntax error in a log that has grown stands in the old part or in the new one. -/
theorem error_in_append (h : log ++ more = before ++ .syntaxError token :: rest) :
    (∃ old, log = before ++ .syntaxError token :: old ∧ rest = old ++ more) ∨
      ∃ new, more = new ++ .syntaxError token :: rest := by
  rcases List.append_eq_append_iff.mp h with ⟨new, -, hmore⟩ | ⟨old, hlog, hrest⟩
  · exact .inr ⟨new, hmore⟩
  · cases old with
    | nil => exact .inr ⟨[], hrest.symm⟩
    | cons first old =>
      obtain ⟨rfl, rfl⟩ := List.cons.inj hrest
      exact .inl ⟨old, hlog, rfl⟩

/-- What is told up to the next syntax error can grow only by what is told before one. -/
theorem untilError_append (ns more : List (Notice V)) : ∃ tail,
    Notice.untilError (ns ++ more) = Notice.untilError ns ++ tail ∧
      tail.Sublist (Notice.untilError more) := by
  induction ns with
  | nil => exact ⟨_, rfl, .refl _⟩
  | cons n ns ih =>
    obtain ⟨tail, htail, hsub⟩ := ih
    cases hn : n.isSyntaxError with
    | true => exact ⟨[], by simp [Notice.untilError, hn], List.nil_sublist _⟩
    | false =>
      refine ⟨tail, ?_, hsub⟩
      rw [List.cons_append, Notice.untilError, List.takeWhile_cons_of_pos (by simp [hn]),
        ← Notice.untilError, htail, Notice.untilError, Notice.untilError,
        List.takeWhile_cons_of_pos (by simp [hn]), List.cons_append]

/-- Moves of the parser do not matter. -/
theorem Orderly.append_moves (h : Orderly log)
    (hattempts : ∀ event ∈ events, event.attempt? = none) :
    Orderly (log ++ p.traced events) := by
  intro before token rest hsplit
  rcases error_in_append hsplit with ⟨old, hlog, rfl⟩ | ⟨new, hnew⟩
  -- Behind an error of the old part there may be some of the moves now.
  · have hold := h before token old hlog
    obtain ⟨tail, htail, hsub⟩ := untilError_append old (p.traced events)
    have hmoves : ∀ n ∈ tail, ∃ event ∈ events, n = .trace event := fun n hn =>
      Parser.mem_traced (List.takeWhile_subset _ (hsub.subset hn))
    have htried : Notice.attempts tail = [] := by
      rw [Notice.attempts, List.filterMap_eq_nil_iff]
      intro event hevent
      obtain ⟨n, hn, htraced⟩ := List.mem_filterMap.mp hevent
      obtain ⟨event', hmem, rfl⟩ := hmoves n hn
      cases htraced
      exact hattempts event hmem
    have hrepairs : tail.any Notice.isRepair = false := by
      rw [List.any_eq_false]
      intro n hn
      obtain ⟨event, -, rfl⟩ := hmoves n hn
      exact Bool.false_ne_true
    rw [htail, Notice.attempts_append, htried, List.append_nil, List.any_append, hrepairs,
      Bool.or_false]
    exact hold
  · have hmem : (.syntaxError token : Notice V) ∈ p.traced events := by
      rw [hnew]
      simp
    obtain ⟨event, -, hevent⟩ := Parser.mem_traced hmem
    cases hevent

/-- An error with what recovery tells of it. -/
theorem Orderly.append_error (h : Orderly log) (token : Symbol V)
    (hnone : ∀ n ∈ told, n.isSyntaxError = false)
    (htried : TriedInOrder (Notice.attempts told) (told.any Notice.isRepair)) :
    Orderly (log ++ .syntaxError token :: told) := by
  have hall : Notice.untilError told = told := by
    rw [Notice.untilError, List.takeWhile_eq_self_iff]
    intro n hn
    simp [hnone n hn]
  intro before other rest hsplit
  rcases error_in_append hsplit with ⟨old, hlog, rfl⟩ | ⟨new, hnew⟩
  -- The new error cuts off what follows an old one.
  · have hold := h before other old hlog
    obtain ⟨tail, htail, hsub⟩ := untilError_append old (.syntaxError token :: told)
    rw [List.sublist_nil.mp hsub, List.append_nil] at htail
    rw [htail]
    exact hold
  · cases new with
    | nil =>
      obtain ⟨-, rfl⟩ := List.cons.inj hnew
      rw [hall]
      exact htried
    | cons first new =>
      obtain ⟨-, rfl⟩ := List.cons.inj hnew
      have := hnone (.syntaxError other) (by simp)
      cases this

end ShiftReduce
