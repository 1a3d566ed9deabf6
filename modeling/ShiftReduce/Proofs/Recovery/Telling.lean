import ShiftReduce.Proofs.Recovery.Invariants

/-!
# What recovery tells

Each strategy that has ended is traced, if the parser traces, with or without success; and a
strategy that has succeeded tells its repair, right behind that. A strategy that has nothing to
try is not traced, and a fault of the scanner ends recovery without a word.

* `Configuration.log`: what has been told, lexical faults apart.
* `Adds`: what has been told stays, and only notices of some kind come behind it.
* `Tells`: how strategies have ended, and what is reported.
* `recover_tells`: recovery tries its strategies in order, and reports nothing unless the last of
  them has succeeded.
-/

namespace ShiftReduce

variable {σ V : Type} {p : Parser σ V} {fuel unwound : Nat} {c c' c'' : Configuration σ V}
  {a a' : Attempt σ V} {r : Repair σ V} {strategy : Strategy} {state : StateId}
  {notice : Symbol V → Notice V} {n : Notice V} {ids : List SymbolId} {token : Symbol V}
  {event : TraceEvent}

/-! ## The log -/

/-- What is told besides lexical faults. -/
def Notice.withoutLexical (ns : List (Notice V)) : List (Notice V) :=
  ns.filter fun n => n.lexical?.isNone

/-- The strategy that has ended, and whether it has succeeded. -/
def TraceEvent.attempt? : TraceEvent → Option (Strategy × Bool)
  | recovery strategy _ succeeded _ _ => some (strategy, succeeded)
  | _ => none

/-- The traces of moves, if the parser traces. -/
def Parser.traced (p : Parser σ V) (events : List TraceEvent) : List (Notice V) :=
  if p.settings.trace then events.map .trace else []

theorem Parser.traced_append (p : Parser σ V) (events more : List TraceEvent) :
    p.traced (events ++ more) = p.traced events ++ p.traced more := by
  unfold traced
  split
  · exact List.map_append
  · rfl

namespace Configuration

/-- What has been told, lexical faults apart. -/
def log (c : Configuration σ V) : List (Notice V) := Notice.withoutLexical c.notices.toList

theorem log_notify (h : n.lexical? = none) (c : Configuration σ V) :
    (c.notify n).log = c.log ++ [n] := by
  simp [log, notify, Notice.withoutLexical, h]

@[simp] theorem log_notifyLexical (c : Configuration σ V) (faults : List LexicalError) :
    (c.notifyLexical faults).log = c.log := by
  simp [log, notifyLexical, Notice.withoutLexical, Notice.lexical?]

theorem log_trace (c : Configuration σ V) (p : Parser σ V) (event : TraceEvent) :
    (c.trace p event).log = c.log ++ p.traced [event] := by
  unfold trace Parser.traced
  split
  · exact log_notify rfl c
  · exact (List.append_nil _).symm

theorem notices_trace (c : Configuration σ V) (p : Parser σ V) (event : TraceEvent) :
    (c.trace p event).notices.toList = c.notices.toList ++ p.traced [event] := by
  unfold trace Parser.traced
  split
  · exact Array.toList_push
  · exact (List.append_nil _).symm

theorem log_simulate {sim : Simulation V} (h : c.simulate p fuel = .ok (sim, c')) :
    c'.log = c.log := by
  obtain ⟨stream, -, h⟩ := bind_eq_ok.mp h
  obtain ⟨run, -, h⟩ := bind_eq_ok.mp h
  cases h
  exact log_notifyLexical _ _

end Configuration

/-! ## Notices of a kind -/

/-- A configuration that has told what another one has, and behind that only notices of a kind. -/
def Adds (ok : Notice V → Prop) (c c' : Configuration σ V) : Prop :=
  ∃ told, c'.notices.toList = c.notices.toList ++ told ∧ ∀ n ∈ told, ok n

namespace Adds

open ShiftReduce.Configuration

variable {ok : Notice V → Prop}

theorem of_eq (h : c'.notices = c.notices) : Adds ok c c' :=
  ⟨[], by rw [h, List.append_nil], by simp⟩

theorem refl (c : Configuration σ V) : Adds ok c c := .of_eq rfl

theorem trans (h : Adds ok c c') (h' : Adds ok c' c'') : Adds ok c c'' := by
  obtain ⟨told, heq, hok⟩ := h
  obtain ⟨told', heq', hok'⟩ := h'
  refine ⟨told ++ told', by rw [heq', heq, List.append_assoc], ?_⟩
  simpa only [List.forall_mem_append] using ⟨hok, hok'⟩

theorem isPrefix (h : Adds ok c c') : c.notices.toList <+: c'.notices.toList := by
  obtain ⟨told, heq, -⟩ := h
  exact ⟨told, heq.symm⟩

/-- If all was of the kind before, then all is. -/
theorem forall_mem (h : Adds ok c c') (hall : ∀ n ∈ c.notices.toList, ok n) :
    ∀ n ∈ c'.notices.toList, ok n := by
  obtain ⟨told, heq, hok⟩ := h
  rw [heq]
  simpa only [List.forall_mem_append] using ⟨hall, hok⟩

theorem notify (c : Configuration σ V) (h : ok n) : Adds ok c (c.notify n) :=
  ⟨[n], Array.toList_push, by simpa using h⟩

theorem notifyLexical (hlexical : ∀ e, ok (.lexicalError e)) (c : Configuration σ V)
    (faults : List LexicalError) : Adds ok c (c.notifyLexical faults) := by
  refine ⟨faults.map .lexicalError, by simp [Configuration.notifyLexical], ?_⟩
  rw [List.forall_mem_map]
  exact fun e _ => hlexical e

theorem trace (c : Configuration σ V) (p : Parser σ V) (h : ok (.trace event)) :
    Adds ok c (c.trace p event) := by
  unfold Configuration.trace
  split
  · exact .notify c h
  · exact .refl c

/-- A simulation tells lexical faults only. -/
theorem simulate (hlexical : ∀ e, ok (.lexicalError e)) {sim : Simulation V}
    (h : c.simulate p fuel = .ok (sim, c')) : Adds ok c c' := by
  obtain ⟨stream, -, h⟩ := bind_eq_ok.mp h
  obtain ⟨run, -, h⟩ := bind_eq_ok.mp h
  cases h
  exact .trans (.of_eq rfl) (.notifyLexical hlexical _ _)

theorem simulates (hlexical : ∀ e, ok (.lexicalError e)) (h : c.Simulates p fuel c') :
    Adds ok c c' := by
  cases h with
  | before => exact .refl c
  | reading _ _ => exact .trans (.of_eq rfl) (.notifyLexical hlexical _ _)

end Adds

namespace Recovery

open ShiftReduce.Configuration

/-! ## Telling -/

/-- What has been told between two configurations: how strategies have ended, if this is traced,
and then what is reported. -/
def Tells (p : Parser σ V) (c c' : Configuration σ V) (attempts : List (Strategy × Bool))
    (reports : List (Notice V)) : Prop :=
  ∃ events, events.map TraceEvent.attempt? = attempts.map some ∧
    c'.log = c.log ++ (p.traced events ++ reports)

namespace Tells

variable {attempts more : List (Strategy × Bool)} {reports : List (Notice V)}

theorem of_log_eq (h : c'.log = c.log) : Tells p c c' [] [] := by
  refine ⟨[], rfl, ?_⟩
  rw [h, Parser.traced]
  simp

theorem trans (h : Tells p c c' attempts []) (h' : Tells p c' c'' more reports) :
    Tells p c c'' (attempts ++ more) reports := by
  obtain ⟨events, hevents, hlog⟩ := h
  obtain ⟨events', hevents', hlog'⟩ := h'
  refine ⟨events ++ events', ?_, ?_⟩
  · rw [List.map_append, hevents, hevents', List.map_append]
  · rw [hlog', hlog, Parser.traced_append]
    simp only [List.append_nil, List.append_assoc]

/-- What is the same log is told as well. -/
theorem congr (h : Tells p c c' attempts reports) (hlog : c''.log = c'.log) :
    Tells p c c'' attempts reports := by
  obtain ⟨events, hevents, hlog'⟩ := h
  exact ⟨events, hevents, hlog.trans hlog'⟩

theorem reported (h : Tells p c c' attempts []) (hn : n.isRepair = true) :
    Tells p c (c'.notify n) attempts [n] := by
  obtain ⟨events, hevents, hlog⟩ := h
  refine ⟨events, hevents, ?_⟩
  rw [log_notify (Notice.lexical?_of_isRepair hn), hlog, List.append_nil, List.append_assoc]

/-- The first buffered token is reported, if there is one. -/
theorem reportedHead (h : Tells p c c' attempts []) (hnotice : ∀ x, (notice x).isRepair = true) :
    ∃ reports : List (Notice V), (∀ n ∈ reports, n.isRepair = true) ∧
      Tells p c (notifyHead notice c') attempts reports := by
  unfold notifyHead
  split
  · rename_i x _
    exact ⟨[notice x], List.forall_mem_singleton.mpr (hnotice x), h.reported (hnotice x)⟩
  · exact ⟨[], by simp, h⟩

end Tells

def failures (strategies : List Strategy) : List (Strategy × Bool) := strategies.map (·, false)

end Recovery

open Recovery

/-- What a repair tells that has had some strategies to try, in order. All that were tried have
failed, but for the one that has made the repair. -/
inductive Repair.Tells (p : Parser σ V) (c : Configuration σ V) (strategies : List Strategy) :
    Repair σ V → Prop
  | repaired {tried : List Strategy} {strategy : Strategy} {reports : List (Notice V)}
      {c' : Configuration σ V} : (tried ++ [strategy]).Sublist strategies →
      (∀ n ∈ reports, n.isRepair = true) →
      Recovery.Tells p c c' (failures tried ++ [(strategy, true)]) reports →
      Tells p c strategies (.repaired c')
  | aborted {tried : List Strategy} {e : ParseError} {c' : Configuration σ V} :
      tried.Sublist strategies → Recovery.Tells p c c' (failures tried) [] →
      Tells p c strategies (.aborted e c')

/-- What an attempt tells, with the strategies that it can end with, and those that it can leave
behind as failures. -/
inductive Attempt.Tells (p : Parser σ V) (c : Configuration σ V) (strategies left : List Strategy) :
    Attempt σ V → Prop
  | settled {r : Repair σ V} : r.Tells p c strategies → Tells p c strategies left (.settled r)
  | failed {tried : List Strategy} {c' : Configuration σ V} : tried.Sublist left →
      Recovery.Tells p c c' (failures tried) [] → Tells p c strategies left (.failed c')

variable {strategies strategies' left left' tried : List Strategy}

theorem Repair.Tells.mono (h : r.Tells p c strategies) (hsub : strategies.Sublist strategies') :
    r.Tells p c strategies' := by
  cases h with
  | repaired htried hreports htells => exact .repaired (htried.trans hsub) hreports htells
  | aborted htried htells => exact .aborted (htried.trans hsub) htells

/-- A repair after strategies that have failed. -/
theorem Repair.Tells.after (h : r.Tells p c' strategies) (htried : tried.Sublist left)
    (htells : Recovery.Tells p c c' (failures tried) []) :
    r.Tells p c (left ++ strategies) := by
  cases h with
  | repaired hsub hreports htells' =>
    have hall := htells.trans htells'
    rw [← List.append_assoc, failures, failures, ← List.map_append] at hall
    refine .repaired ?_ hreports hall
    rw [List.append_assoc]
    exact htried.append hsub
  | aborted hsub htells' =>
    have hall := htells.trans htells'
    rw [failures, failures, ← List.map_append] at hall
    exact .aborted (htried.append hsub) hall

/-- Nothing has been told before. -/
theorem Repair.Tells.from_log (h : r.Tells p c' strategies) (hlog : c'.log = c.log) :
    r.Tells p c strategies :=
  h.after (.refl []) (.of_log_eq hlog)

/-- Nothing has been told before. -/
theorem Attempt.Tells.from_log (h : a.Tells p c' strategies left) (hlog : c'.log = c.log) :
    a.Tells p c strategies left := by
  cases h with
  | settled hr => exact .settled (hr.from_log hlog)
  | failed htried htells => exact .failed htried ((Recovery.Tells.of_log_eq hlog).trans htells)

/-- An attempt after another one that has failed. -/
theorem Attempt.Tells.orElse {T L : List Strategy}
    {second : Configuration σ V → Fueled (Attempt σ V)} (ha : a.Tells p c strategies left)
    (h : a.orElse second = .ok a')
    (hsecond : ∀ c', second c' = .ok a' → a'.Tells p c' strategies' left')
    (hfirst : strategies.Sublist T) (hboth : (left ++ strategies').Sublist T)
    (hleft : (left ++ left').Sublist L) : a'.Tells p c T L := by
  cases ha with
  | settled hr =>
    cases h
    exact .settled (hr.mono hfirst)
  | failed htried htells =>
    cases hsecond _ h with
    | settled hr => exact .settled ((hr.after htried htells).mono hboth)
    | failed htried' htells' =>
      have hall := htells.trans htells'
      rw [failures, failures, ← List.map_append] at hall
      exact .failed ((htried.append htried').trans hleft) hall

namespace Recovery

open ShiftReduce.Configuration

/-! ## The strategies -/

theorem ended (hlog : c'.log = c.log) (strategy : Strategy) (state : StateId) (succeeded : Bool)
    (unwound reduced : Nat) :
    Tells p c (c'.trace p (.recovery strategy state succeeded unwound reduced))
      [(strategy, succeeded)] [] := by
  refine ⟨[.recovery strategy state succeeded unwound reduced], rfl, ?_⟩
  rw [log_trace, hlog, List.append_nil]

/-- A strategy that has made a repair. -/
theorem succeeds {reports : List (Notice V)} (hreports : ∀ n ∈ reports, n.isRepair = true)
    (h : Tells p c c' [(strategy, true)] reports) : (Repair.repaired c').Tells p c [strategy] :=
  .repaired (show ([] ++ [strategy]).Sublist [strategy] from .refl _) hreports
    (show Tells p c c' (failures [] ++ [(strategy, true)]) reports from h)

/-- A strategy that has made the repair that it reports. -/
theorem succeeds_reporting (h : Tells p c c' [(strategy, true)] []) (hn : n.isRepair = true) :
    (Repair.repaired (c'.notify n)).Tells p c [strategy] :=
  succeeds (List.forall_mem_singleton.mpr hn) (h.reported hn)

/-- A strategy that has failed. -/
theorem fails (hlog : c'.log = c.log) (strategy : Strategy) (state : StateId) (unwound : Nat) :
    (Attempt.failed (traceFailure p strategy state unwound c')).Tells p c strategies [strategy] :=
  .failed (.refl [strategy]) (ended hlog strategy state false unwound 0)

/-- A strategy with which recovery has come to its end, and has failed. -/
theorem aborts (hlog : c'.log = c.log) (strategy : Strategy) (state : StateId) (unwound : Nat)
    (e : ParseError) :
    (Repair.aborted e (traceFailure p strategy state unwound c')).Tells p c [strategy] :=
  .aborted (.refl [strategy]) (ended hlog strategy state false unwound 0)

theorem tryIds_tells (h : tryIds p fuel strategy state notice ids c = .ok a)
    (hnotice : ∀ x, (notice x).isRepair = true) : a.Tells p c [strategy] [] := by
  induction ids generalizing c with
  | nil =>
    cases h
    exact .failed (.refl []) (.of_log_eq rfl)
  | cons id ids ih =>
    obtain ⟨⟨sim, c₁⟩, hsim, h⟩ := bind_eq_ok.mp h
    have hlog : c₁.log = c.log := (log_simulate hsim).trans rfl
    dsimp only at h
    split at h
    · cases h
      obtain ⟨reports, hreports, htells⟩ :=
        (ended hlog strategy state true 0 _ : Tells p c _ _ _).reportedHead hnotice
      exact .settled (succeeds hreports htells)
    · exact (ih h).from_log hlog
    · cases h
      exact .settled (.aborted (List.nil_sublist _) (.of_log_eq hlog))

theorem insertMissing_tells (h : insertMissing p fuel state ids c = .ok a) :
    a.Tells p c [.insertion] [.insertion] := by
  cases ids with
  | nil =>
    cases h
    exact .failed (List.nil_sublist _) (.of_log_eq rfl)
  | cons first rest =>
    obtain ⟨below, -, h⟩ := bind_eq_ok.mp h
    obtain ⟨stream, -, h⟩ := bind_eq_ok.mp h
    obtain ⟨tried, htry, h⟩ := bind_eq_ok.mp h
    have htried : tried.Tells p c [.insertion] [] :=
      (tryIds_tells htry fun _ => rfl).from_log rfl
    refine htried.orElse h ?_ (.refl _) (.refl _) (.refl _)
    intro c₁ h
    obtain ⟨⟨removed, stream'⟩, -, h⟩ := bind_eq_ok.mp h
    cases h
    refine fails ?_ .insertion state 0
    rfl

theorem replaceMisspelled_tells (h : replaceMisspelled p fuel state ids c = .ok a) :
    a.Tells p c [.replacement] [.replacement] := by
  unfold replaceMisspelled at h
  split at h
  · cases h
    exact .failed (List.nil_sublist _) (.of_log_eq rfl)
  · cases h
    exact .failed (List.nil_sublist _) (.of_log_eq rfl)
  · obtain ⟨tried, htry, h⟩ := bind_eq_ok.mp h
    have htried : tried.Tells p c [.replacement] [] := tryIds_tells htry fun _ => rfl
    refine htried.orElse h ?_ (.refl _) (.refl _) (.refl _)
    intro c₁ h
    cases h
    refine fails ?_ .replacement state 0
    rfl

theorem deleteUnexpected_tells (h : deleteUnexpected p fuel state c = .ok a) :
    a.Tells p c [.deletion] [.deletion] := by
  obtain ⟨stream, -, h⟩ := bind_eq_ok.mp h
  obtain ⟨⟨token, stream'⟩, -, h⟩ := bind_eq_ok.mp h
  obtain ⟨⟨sim, c₁⟩, hsim, h⟩ := bind_eq_ok.mp h
  have hlog : c₁.log = c.log := (log_simulate hsim).trans rfl
  dsimp only at h
  split at h
  · cases h
    exact .settled (succeeds_reporting (ended hlog .deletion state true 0 _) rfl)
  · obtain ⟨stream'', -, h⟩ := bind_eq_ok.mp h
    cases h
    refine fails ?_ .deletion state 0
    exact hlog
  · cases h
    exact .settled (.aborted (List.nil_sublist _) (.of_log_eq hlog))

theorem widenPhrase_tells (h : widenPhrase p state unwound fuel c = .ok r) :
    r.Tells p c [.phrase] := by
  induction fuel generalizing c with
  | zero => cases h
  | succ fuel ih =>
    obtain ⟨⟨sim, c₁⟩, hsim, h⟩ := bind_eq_ok.mp h
    have hlog : c₁.log = c.log := log_simulate hsim
    dsimp only at h
    split at h
    · cases h
      exact .aborted (List.nil_sublist _) (.of_log_eq hlog)
    · obtain ⟨top, -, h⟩ := bind_eq_ok.mp h
      cases h
      exact succeeds_reporting (ended hlog .phrase state true unwound _) rfl
    · obtain ⟨⟨discarded, stream⟩, -, h⟩ := bind_eq_ok.mp h
      dsimp only at h
      split at h
      · cases h
        refine aborts ?_ .phrase state unwound _
        exact hlog
      · obtain ⟨stack, -, h⟩ := bind_eq_ok.mp h
        exact (ih h).from_log hlog

theorem replacePhrase_tells (h : replacePhrase p fuel state c = .ok r) :
    r.Tells p c [.phrase] := by
  obtain ⟨below, -, h⟩ := bind_eq_ok.mp h
  dsimp only at h
  split at h
  · cases h
    exact aborts rfl .phrase state 0 _
  · obtain ⟨found, -, h⟩ := bind_eq_ok.mp h
    cases found with
    | none =>
      cases h
      exact aborts rfl .phrase state _ _
    | some found => exact (widenPhrase_tells h).from_log rfl

/-! ## All strategies -/

/-- The strategies, in the order in which they are tried. -/
def allStrategies : List Strategy := [.insertion, .replacement, .deletion, .phrase]

theorem recover_tells (h : recover p fuel token c = .ok r) : r.Tells p c allStrategies := by
  unfold recover at h
  split at h
  · cases h
    exact .aborted (List.nil_sublist _) (.of_log_eq rfl)
  · obtain ⟨state, -, h⟩ := bind_eq_ok.mp h
    obtain ⟨stream, -, h⟩ := bind_eq_ok.mp h
    obtain ⟨ids, -, h⟩ := bind_eq_ok.mp h
    obtain ⟨inserted, hinserted, h⟩ := bind_eq_ok.mp h
    obtain ⟨replaced, hreplaced, h⟩ := bind_eq_ok.mp h
    obtain ⟨deleted, hdeleted, h⟩ := bind_eq_ok.mp h
    obtain ⟨done, hdone, h⟩ := bind_eq_ok.mp h
    have hinserted : inserted.Tells p c [.insertion] [.insertion] :=
      (insertMissing_tells hinserted).from_log rfl
    have hreplaced : replaced.Tells p c [.insertion, .replacement] [.insertion, .replacement] :=
      hinserted.orElse hreplaced (fun _ => replaceMisspelled_tells) (by decide) (.refl _) (.refl _)
    have hdeleted : deleted.Tells p c [.insertion, .replacement, .deletion]
        [.insertion, .replacement, .deletion] :=
      hreplaced.orElse hdeleted (fun _ => deleteUnexpected_tells) (by decide) (.refl _) (.refl _)
    have hdone : done.Tells p c allStrategies := by
      cases hdeleted with
      | settled hr =>
        cases hdone
        exact hr.mono (by decide)
      | failed htried htells => exact (replacePhrase_tells hdone).after htried htells
    -- All that is left is to leave the buffering mode, and this is not told.
    cases hdone with
    | repaired htried hreports htells =>
      cases h
      exact .repaired htried hreports (htells.congr rfl)
    | aborted htried htells =>
      cases h
      exact .aborted htried htells

end Recovery

end ShiftReduce
