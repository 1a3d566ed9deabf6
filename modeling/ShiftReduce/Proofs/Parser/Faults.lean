import ShiftReduce.Proofs.Parser.Invariants
import ShiftReduce.Proofs.Stream.Faults

/-!
# Faults surface once

A simulation may meet a fault, and other simulations and the parser itself come by the same
place again. By then the token behind the fault is buffered, so no item is pulled twice, and no
fault is told twice. `Clean` says what has been pulled and told while a parse goes on, and
`Spoilt` says it for a parse that a fault has ended.

* `Clean.delivered`: what one request does.
* `Returned`: what a parse returns, by what it has pulled last.
* `stable_clean`: all acts of a parse keep it so.
* `faults_surface_once`: what has been told at every moment, and how a parse ends.
-/

namespace ShiftReduce

open ShiftReduce.Configuration Relation

variable {σ V : Type} {p : Parser σ V} {fuel more : Nat} {c c' : Configuration σ V}
  {items : List (Except ScanError (Symbol V))} {goal : Option SymbolId}

namespace Configuration

/-- The lexical faults that have been told, in order. -/
def lexicalFaults (c : Configuration σ V) : List LexicalError :=
  c.notices.toList.filterMap Notice.lexical?

theorem lexicalFaults_notify {n : Notice V} (h : n.lexical? = none) (c : Configuration σ V) :
    (c.notify n).lexicalFaults = c.lexicalFaults := by
  simp [lexicalFaults, notify, h]

@[simp] theorem lexicalFaults_notifyLexical (c : Configuration σ V) (faults : List LexicalError) :
    (c.notifyLexical faults).lexicalFaults = c.lexicalFaults ++ faults := by
  have hall : (faults.map (.lexicalError : _ → Notice V)).filterMap Notice.lexical? = faults := by
    rw [List.filterMap_map]
    exact List.filterMap_some
  simp only [lexicalFaults, notifyLexical, Array.toList_append, List.filterMap_append, hall]

@[simp] theorem lexicalFaults_trace (c : Configuration σ V) (p : Parser σ V)
    (event : TraceEvent) : (c.trace p event).lexicalFaults = c.lexicalFaults := by
  unfold trace
  split
  · exact lexicalFaults_notify rfl c
  · rfl

/-! ## The account of what has been pulled -/

/-- What has been pulled of some items, and what has been told of that. -/
structure Pulled (items pulled : List (Except ScanError (Symbol V))) (c : Configuration σ V) :
    Prop where
  items_eq : items = pulled ++ c.stream.scanner.items
  told_eq : c.lexicalFaults = ShiftReduce.lexicalFaults pulled

/-- Nothing that has been pulled ends the parse. -/
def Clean (items : List (Except ScanError (Symbol V))) (c : Configuration σ V) : Prop :=
  ∃ pulled, Pulled items pulled c ∧ Harmless pulled

/-- The last item that has been pulled is a fault that ends the parse. -/
def Spoilt (items : List (Except ScanError (Symbol V))) (fault : ScanError)
    (c : Configuration σ V) : Prop :=
  ∃ pulled, Pulled items (pulled ++ [.error fault]) c ∧ Harmless pulled ∧ fault.isLexical = false

/-- The account is of the scanner and of the lexical faults told. -/
theorem Clean.of_eq (h : Clean items c) (hscanner : c'.stream.scanner = c.stream.scanner)
    (htold : c'.lexicalFaults = c.lexicalFaults) : Clean items c' := by
  obtain ⟨pulled, ⟨hitems, hfaults⟩, hharmless⟩ := h
  exact ⟨pulled, ⟨hscanner ▸ hitems, htold.trans hfaults⟩, hharmless⟩

/-- The course of a request to the scanner: each lexical fault is told as it is pulled. -/
inductive Scans (c : Configuration σ V) : Configuration σ V → Prop
  | start : Scans c c
  | skip {c' : Configuration σ V} {e : LexicalError} {scanner : Scanner V} : Scans c c' →
      c'.stream.scanner.next = (.error (.lexical e), scanner) →
      Scans c ({ c' with stream := { c'.stream with scanner } }.notify (.lexicalError e))

/-- In the course of a request what has been told is what has been pulled. -/
theorem Clean.scans (h : Clean items c) (hscans : c.Scans c') : Clean items c' := by
  induction hscans with
  | start => exact h
  | @skip c' e scanner _ hnext ih =>
    obtain ⟨pulled, ⟨hitems, htold⟩, hharmless⟩ := ih
    have hfirst : Harmless ([.error (.lexical e)] : List (Except ScanError (Symbol V))) :=
      harmless_skipped [e]
    refine ⟨pulled ++ [.error (.lexical e)], ⟨?_, ?_⟩, hharmless.append hfirst⟩
    · rw [hitems, Scanner.items_of_next_error hnext, List.append_assoc]
      rfl
    · rw [lexicalFaults_append, ← htold]
      simp [lexicalFaults, notify, Notice.lexical?, ShiftReduce.lexicalFaults, lexicalFault?,
        ScanError.lexical?]

/-- The account after an answer: clean, unless the answer is a fault. -/
def Stands {α : Type} (items : List (Except ScanError (Symbol V))) :
    Except ScanError α → Configuration σ V → Prop
  | .ok _, c => Clean items c
  | .error fault, c => Spoilt items fault c

theorem Stands.held {α : Type} {answer : Except ScanError α} (h : Stands items answer c) :
    Held (Clean items) (Spoilt items) c := by
  cases answer with
  | ok a => exact .inl h
  | error fault => exact .inr ⟨fault, h⟩

/-- What a request delivers is pulled, and told where it is a lexical fault. -/
theorem Clean.delivered {d : Delivery V} (h : Clean items c) (hd : d.From c.stream)
    (hscanner : c'.stream.scanner = d.stream.scanner)
    (htold : c'.lexicalFaults = c.lexicalFaults ++ d.lexical) : Stands items d.result c' := by
  cases hd with
  | buffer hlexical hresult hsame =>
    rw [hlexical, List.append_nil] at htold
    rw [hresult]
    exact h.of_eq (hscanner.trans hsame) htold
  | scanner hlexical hresult hscan =>
    obtain ⟨pulled, ⟨hitems, hfaults⟩, hharmless⟩ := h
    obtain ⟨more, hmore, hrequest⟩ := c.stream.scanner.scan_request
    have hpulled : Pulled items (pulled ++ more) c' := by
      constructor
      · rw [hitems, hmore, hscanner, hscan, List.append_assoc]
      · rw [htold, hfaults, hlexical, lexicalFaults_append, hrequest.lexicalFaults_eq]
    rw [hresult]
    cases hanswer : c.stream.scanner.scan.result with
    | ok token =>
      rw [hanswer] at hrequest
      exact ⟨_, hpulled, hharmless.append hrequest.harmless⟩
    | error fault =>
      rw [hanswer] at hrequest
      obtain ⟨hfatal, before, rfl, hbefore⟩ := hrequest.fatal
      rw [← List.append_assoc] at hpulled
      exact ⟨_, hpulled, hharmless.append hbefore, hfatal⟩

/-! ## Simulations -/

theorem lexicalFaults_simulating (c : Configuration σ V) (stream : TokenStream V)
    (lexical : List LexicalError) :
    (c.simulating stream lexical).lexicalFaults = c.lexicalFaults ++ lexical :=
  lexicalFaults_notifyLexical _ _

/-- A simulation begins with nothing pulled and nothing told. -/
theorem Clean.rewound {stream : TokenStream V} (h : Clean items c)
    (hrewind : c.stream.rewind = .ok stream) : Clean items (c.simulating stream []) := by
  refine h.of_eq (TokenStream.scanner_rewind hrewind) ?_
  rw [lexicalFaults_simulating, List.append_nil]

/-- A simulation reads a token. -/
theorem Clean.buffered {stream : TokenStream V} {lexical : List LexicalError} {d : Delivery V}
    (h : Clean items (c.simulating stream lexical)) (hnext : stream.nextBuffered = .ok d) :
    Stands items d.result (c.simulating d.stream (lexical ++ d.lexical)) := by
  refine h.delivered (TokenStream.nextBuffered_from hnext) rfl ?_
  rw [lexicalFaults_simulating, lexicalFaults_simulating, List.append_assoc]

/-- While a simulation reads, what has been told and pulled is told with the parse. -/
theorem Clean.passes {t : PackedTables} {sim : Simulator} {stream stream' : TokenStream V}
    {lexical lexical' : List LexicalError} (h : Clean items (c.simulating stream lexical))
    (hpasses : Simulation.Passes t fuel more sim stream lexical stream' lexical') :
    Held (Clean items) (Spoilt items) (c.simulating stream' lexical') := by
  induction hpasses with
  | start => exact .inl h
  | read hnext => exact (h.buffered hnext).held
  | next hnext hresult _ _ ih =>
    have hstands := h.buffered hnext
    rw [hresult] at hstands
    exact ih hstands

theorem Clean.simulates (h : Clean items c) (hsim : c.Simulates p fuel c') :
    Held (Clean items) (Spoilt items) c' := by
  cases hsim with
  | before => exact .inl h
  | reading hrewind hpasses => exact (h.rewound hrewind).passes hpasses

/-- A simulation has been clean, unless a fault of the scanner has ended it. -/
theorem Clean.runTokens {t : PackedTables} {sim : Simulator} {stream : TokenStream V}
    {lexical : List LexicalError} {run : Simulation V}
    (h : Clean items (c.simulating stream lexical))
    (hrun : Simulation.runTokens t fuel more sim stream lexical = .ok run) :
    Stands items run.succeeded (c.simulating run.stream run.lexical) := by
  -- By induction on how many more tokens there may be, as in the definition.
  induction more using Nat.strongRecOn generalizing sim stream lexical with
  | ind more ih =>
    unfold Simulation.runTokens at hrun
    obtain ⟨d, hnext, hrun⟩ := bind_eq_ok.mp hrun
    have hstands := h.buffered (liftM_eq_ok.mp hnext)
    split at hrun
    · rename_i fault hresult
      cases hrun
      rw [hresult] at hstands
      exact hstands
    · rename_i token hresult
      rw [hresult] at hstands
      obtain ⟨⟨verdict, sim'⟩, -, hrun⟩ := bind_eq_ok.mp hrun
      cases verdict with
      | accepted =>
        cases hrun
        exact hstands
      | refused =>
        cases hrun
        exact hstands
      | shifted =>
        cases more with
        | zero =>
          cases hrun
          exact hstands
        | succ more => exact ih more (Nat.lt_succ_self more) hstands hrun

theorem Clean.simulated {sim : Simulation V} (h : Clean items c)
    (hsim : c.simulate p fuel = .ok (sim, c')) : Stands items sim.succeeded c' := by
  obtain ⟨stream, hrewind, hsim⟩ := bind_eq_ok.mp hsim
  obtain ⟨run, hrun, hsim⟩ := bind_eq_ok.mp hsim
  cases hsim
  exact (h.rewound (liftM_eq_ok.mp hrewind)).runTokens hrun

theorem Clean.read {q : Progress σ V} (h : Clean items c) (hread : c.readToken = .ok q) :
    q.Ends (Clean items) (Spoilt items) := by
  obtain ⟨d, hnext, hread⟩ := bind_eq_ok.mp hread
  have hstands : Stands items d.result
      (({ c with stream := d.stream } : Configuration σ V).notifyLexical d.lexical) :=
    h.delivered (TokenStream.next_from hnext) rfl (lexicalFaults_notifyLexical _ _)
  dsimp only at hread
  split at hread
  · rename_i token hresult
    cases hread
    rw [hresult] at hstands
    exact .running hstands
  · rename_i fault hresult
    cases hread
    rw [hresult] at hstands
    exact .fault hstands

/-! ## What a parse returns -/

/-- A parse that has ended returns a fault of its scanner just if it is the last item that has been
pulled, and no lexical one. -/
def Returned (items : List (Except ScanError (Symbol V))) (result : Except ParseError (Option V))
    (c : Configuration σ V) : Prop :=
  ∃ pulled, items = pulled ++ c.stream.scanner.items ∧ Harmless pulled.dropLast ∧
    ∀ fault, result = .error (.scanner fault) ↔
      pulled.getLast? = some (.error fault) ∧ fault.isLexical = false

theorem Clean.returned {result : Except ParseError (Option V)} (h : Clean items c)
    (hother : ∀ fault, result ≠ .error (.scanner fault)) : Returned items result c := by
  obtain ⟨pulled, ⟨hitems, -⟩, hharmless⟩ := h
  refine ⟨pulled, hitems, hharmless.dropLast, ?_⟩
  intro fault
  refine ⟨fun hresult => absurd hresult (hother fault), ?_⟩
  rintro ⟨hlast, hfatal⟩
  rw [hharmless fault (List.mem_of_getLast? hlast)] at hfatal
  cases hfatal

theorem Spoilt.returned {fault : ScanError} (h : Spoilt items fault c) :
    Returned items (.error (.scanner fault)) c := by
  obtain ⟨pulled, ⟨hitems, -⟩, hharmless, hfatal⟩ := h
  refine ⟨_, hitems, ?_, ?_⟩
  · rw [List.dropLast_concat]
    exact hharmless
  · intro other
    rw [List.getLast?_concat]
    constructor
    · rintro ⟨⟩
      exact ⟨rfl, hfatal⟩
    · rintro ⟨hlast, -⟩
      cases hlast
      rfl

end Configuration

/-! ## Parses -/

/-- Whatever a parse does is clean, but for a fault of the scanner. -/
theorem Parser.stable_clean (p : Parser σ V) (goal : Option SymbolId)
    (items : List (Except ScanError (Symbol V))) :
    p.Stable (.ofItems items) goal (Clean items) (Spoilt items) := by
  -- At the start nothing has been pulled.
  have hopened : ∀ {stream : TokenStream V} {memory : σ}, stream.scanner = .ofItems items →
      Clean items (.initial stream memory) := by
    intro stream memory hscanner
    refine ⟨[], ⟨?_, rfl⟩, by simp [Harmless]⟩
    show items = stream.scanner.items
    rw [hscanner]
    rfl
  constructor
  case opened => exact fun hopen => hopened (TokenStream.scanner_ofScanner hopen)
  case marked =>
    exact fun _ hopen hlead => hopened
      ((TokenStream.scanner_withLeading hlead).trans (TokenStream.scanner_ofScanner hopen))
  case read => exact fun hP hread => hP.read hread
  case shifted => exact fun hP _ _ => hP.of_eq (by simp) (lexicalFaults_trace _ _ _)
  case reduced => exact fun hP _ _ => hP.of_eq (by simp) (lexicalFaults_trace _ _ _)
  case followed => exact fun hP _ _ => hP.of_eq rfl rfl
  case accepted => exact fun hP => hP.of_eq (by simp) (by simp)
  case reported => exact fun hP => hP.of_eq rfl (lexicalFaults_notify rfl _)
  case repaired => exact fun hP => hP.of_eq rfl rfl
  case recovery =>
    constructor
    case unwound => exact fun hP _ => hP.of_eq rfl rfl
    case entered => exact fun hP _ _ _ => hP.of_eq rfl rfl
    case widened => exact fun hP _ _ => hP.of_eq rfl rfl
    constructor
    case stream => exact fun hP hscanner => hP.of_eq hscanner rfl
    case traced => exact fun hP => hP.of_eq (by simp) (by simp)
    case told =>
      exact fun hP hrepair =>
        hP.of_eq rfl (lexicalFaults_notify (Notice.lexical?_of_isRepair hrepair) _)
    case simulated =>
      -- Reading ahead pulls items, so this is where the simulation counts.
      intro _ _ _ _ _ hP hsim hok
      have hstands := hP.simulated hsim
      rw [hok] at hstands
      exact hstands
    case faulted =>
      intro _ _ _ _ _ hP hsim hfault
      have hstands := hP.simulated hsim
      rw [hfault] at hstands
      exact hstands
    case simulating => exact fun hP hsim => hP.simulates hsim

namespace Parser

/-- At every moment of a parse, and in the course of each request to the scanner, the lexical
faults that have been told are those among the items that have been pulled, each of them once.
No fault of another kind is among these items, unless it is the last one, and then it is just
what the parse returns. -/
theorem faults_surface_once :
    (∀ c, p.MomentOf (.ofItems items) goal c →
      ∃ pulled, items = pulled ++ c.stream.scanner.items ∧
        c.lexicalFaults = lexicalFaults pulled ∧ Harmless pulled.dropLast ∧
        (Harmless pulled → ∀ c', c.Scans c' → ∃ pulled',
          items = pulled' ++ c'.stream.scanner.items ∧
            c'.lexicalFaults = lexicalFaults pulled' ∧ Harmless pulled')) ∧
    (∀ start result c, p.Starts (.ofItems items) goal start →
      ReflTransGen p.Step start (.finished result c) →
      ∃ pulled, items = pulled ++ c.stream.scanner.items ∧ Harmless pulled.dropLast ∧
        ∀ fault, result = .error (.scanner fault) ↔
          pulled.getLast? = some (.error fault) ∧ fault.isLexical = false) ∧
    ∀ outcome, p.Answers (.ofItems items) goal outcome →
      ∃ start c, p.Starts (.ofItems items) goal start ∧
        ReflTransGen p.Step start (.finished outcome.result c) ∧
        outcome.stats = c.stats ∧ outcome.notices = c.notices := by
  refine ⟨?_, ?_, fun outcome h => h.reaches⟩
  · intro c hmoment
    rcases (p.stable_clean goal items).held hmoment with hclean | ⟨fault, hspoilt⟩
    · obtain ⟨pulled, ⟨hitems, htold⟩, hharmless⟩ := hclean
      refine ⟨pulled, hitems, htold, hharmless.dropLast, ?_⟩
      intro _ c' hscans
      obtain ⟨pulled', ⟨hitems', htold'⟩, hharmless'⟩ :=
        Clean.scans ⟨pulled, ⟨hitems, htold⟩, hharmless⟩ hscans
      exact ⟨pulled', hitems', htold', hharmless'⟩
    · obtain ⟨pulled, ⟨hitems, htold⟩, hharmless, hfatal⟩ := hspoilt
      refine ⟨_, hitems, htold, ?_, ?_⟩
      · rw [List.dropLast_concat]
        exact hharmless
      · intro hall
        rw [hall fault (by simp)] at hfatal
        cases hfatal
  · intro start result c hstart hreach
    have hends := (p.stable_clean goal items).reaches hstart hreach
    cases hends with
    | accepted hP => exact hP.returned (by simp)
    | givenUp hP => exact hP.returned (by simp)
    | fault hF => exact hF.returned

/-- Letters with a fault in front, and with faults behind that only a simulation comes to. -/
def faultyLetters : List (Except ScanError (Symbol Unit)) :=
  [.error (.lexical ⟨.zero, "blot"⟩), .ok letter, .ok letter, .error (.lexical ⟨.zero, "blur"⟩),
    .error (.io "lost")]

/-- The blot is told as it is pulled, and the parse returns the fault that it has pulled last. -/
theorem faults_surface_once_oneLetter :
    (∃ c c' : Configuration Unit Unit, oneLetter.MomentOf (.ofItems faultyLetters) none c ∧
      c.Scans c' ∧ c'.lexicalFaults = [⟨.zero, "blot"⟩] ∧
      ∃ pulled, faultyLetters = pulled ++ c'.stream.scanner.items ∧
        c'.lexicalFaults = lexicalFaults pulled) ∧
    ∃ outcome, oneLetter.Answers (.ofItems faultyLetters) none outcome ∧
      ∃ (c : Configuration Unit Unit) (pulled : List (Except ScanError (Symbol Unit))),
        outcome.notices = c.notices ∧ faultyLetters = pulled ++ c.stream.scanner.items ∧
          pulled.getLast? = some (.error (.io "lost")) := by
  obtain ⟨hmoments, hends, hanswers⟩ :=
    @faults_surface_once _ _ oneLetter faultyLetters none
  constructor
  · obtain ⟨stream, hopen⟩ : ∃ stream,
        TokenStream.ofScanner (.ofItems faultyLetters) oneLetter.settings.window
          oneLetter.slotBytes = .ok stream :=
      ⟨_, rfl⟩
    have hscanner := TokenStream.scanner_ofScanner hopen
    have hmoment : oneLetter.MomentOf (.ofItems faultyLetters) none (.initial stream ()) :=
      .opened hopen
    obtain ⟨pulled, hitems, htold, -, hscans⟩ := hmoments _ hmoment
    -- Nothing has been pulled before the first token is read.
    have hpulled : pulled = [] := by
      have hlength := congrArg List.length hitems
      rw [show (Configuration.initial stream ()).stream.scanner = _ from hscanner] at hlength
      simpa [Scanner.ofItems] using hlength
    have hnext : stream.scanner.next =
        (.error (.lexical ⟨.zero, "blot"⟩), ⟨faultyLetters.tail, .zero⟩) := by
      rw [hscanner]
      rfl
    have hskip : (Configuration.initial stream ()).Scans _ := .skip .start hnext
    obtain ⟨pulled', hitems', htold', -⟩ := hscans (hpulled ▸ by simp [Harmless]) _ hskip
    exact ⟨_, _, hmoment, hskip, rfl, pulled', hitems', htold'⟩
  · obtain ⟨outcome, hparse, hresult⟩ := exists_ok_of_any
      (show (oneLetter.parse 10 (.ofItems faultyLetters) ()).toOption.any
        (fun outcome => decide (outcome.result = .error (.scanner (.io "lost")))) = true by
          decide +kernel)
    obtain ⟨start, c, hstart, hreach, -, hnotices⟩ := hanswers outcome (.parse hparse)
    obtain ⟨pulled, hitems, -, hiff⟩ := hends start _ c hstart hreach
    exact ⟨outcome, .parse hparse, c, pulled, hnotices, hitems,
      ((hiff _).mp (of_decide_eq_true hresult)).1⟩

end Parser

end ShiftReduce
