import ShiftReduce.Parser.Machine
import ShiftReduce.Proofs.Stream.Pending
import ShiftReduce.Proofs.TopDown

/-!
# The parts of a configuration

Each small operation on configurations changes few of their parts. Telling,
tracing and counting leave the stack, the stream and the memory alone; pushing
leaves the stream alone. `Configuration.repairs` are the notices that tell a
repair, and traces and lexical faults add none.

* `Configuration.readToken_spec`: reading takes the head of the pending tokens.
* `Configuration.exists_readToken`: reading in passing is within the contract.
-/

namespace ShiftReduce

variable {σ V : Type}

/-- Whether a notice tells that the input has been edited. -/
def Notice.isRepair : Notice V → Bool
  | .removed _ => true
  | .inserted _ => true
  | .replaced _ => true
  | .phraseRemoved _ => true
  | .lexicalError _ => false
  | .syntaxError _ => false
  | .trace _ => false

def Notice.isSyntaxError : Notice V → Bool
  | .syntaxError _ => true
  | _ => false

def Notice.lexical? : Notice V → Option LexicalError
  | lexicalError e => some e
  | _ => none

theorem Notice.lexical?_of_isRepair {n : Notice V} (h : n.isRepair = true) : n.lexical? = none := by
  cases n <;> first | rfl | cases h

/-- The configuration in which a parse goes on or has ended. -/
def Progress.configuration : Progress σ V → Configuration σ V
  | .running _ c => c
  | .finished _ c => c

@[simp] theorem Progress.configuration_running (token : Symbol V) (c : Configuration σ V) :
    (Progress.running token c).configuration = c := rfl

@[simp] theorem Progress.configuration_finished (result : Except ParseError (Option V))
    (c : Configuration σ V) : (Progress.finished result c).configuration = c := rfl

def Progress.token? : Progress σ V → Option (Symbol V)
  | .running token _ => some token
  | .finished _ _ => none

theorem Progress.eq_running {token : Symbol V} {q : Progress σ V} (h : q.token? = some token) :
    q = .running token q.configuration := by
  cases q with
  | running token' c =>
    cases h
    rfl
  | finished result c => cases h

namespace Configuration

variable {p : Parser σ V} {c c' : Configuration σ V} {token : Symbol V}

def repairs (c : Configuration σ V) : List (Notice V) :=
  c.notices.toList.filter Notice.isRepair

/-! ## Telling and counting -/

@[simp] theorem notify_stack (c : Configuration σ V) (n : Notice V) :
    (c.notify n).stack = c.stack := rfl

@[simp] theorem notify_stream (c : Configuration σ V) (n : Notice V) :
    (c.notify n).stream = c.stream := rfl

@[simp] theorem notify_stats (c : Configuration σ V) (n : Notice V) :
    (c.notify n).stats = c.stats := rfl

@[simp] theorem notify_memory (c : Configuration σ V) (n : Notice V) :
    (c.notify n).memory = c.memory := rfl

@[simp] theorem repairs_notify (c : Configuration σ V) (n : Notice V) :
    (c.notify n).repairs = c.repairs ++ if n.isRepair then [n] else [] := by
  simp [repairs, notify, List.filter_cons]

@[simp] theorem notifyLexical_stack (c : Configuration σ V) (faults : List LexicalError) :
    (c.notifyLexical faults).stack = c.stack := rfl

@[simp] theorem notifyLexical_stream (c : Configuration σ V) (faults : List LexicalError) :
    (c.notifyLexical faults).stream = c.stream := rfl

@[simp] theorem notifyLexical_stats (c : Configuration σ V) (faults : List LexicalError) :
    (c.notifyLexical faults).stats = c.stats := rfl

@[simp] theorem repairs_notifyLexical (c : Configuration σ V) (faults : List LexicalError) :
    (c.notifyLexical faults).repairs = c.repairs := by
  simp [repairs, notifyLexical, Notice.isRepair]

@[simp] theorem trace_stack (c : Configuration σ V) (p : Parser σ V) (event : TraceEvent) :
    (c.trace p event).stack = c.stack := by
  unfold trace
  split <;> rfl

@[simp] theorem trace_stream (c : Configuration σ V) (p : Parser σ V) (event : TraceEvent) :
    (c.trace p event).stream = c.stream := by
  unfold trace
  split <;> rfl

@[simp] theorem trace_stats (c : Configuration σ V) (p : Parser σ V) (event : TraceEvent) :
    (c.trace p event).stats = c.stats := by
  unfold trace
  split <;> rfl

@[simp] theorem trace_memory (c : Configuration σ V) (p : Parser σ V) (event : TraceEvent) :
    (c.trace p event).memory = c.memory := by
  unfold trace
  split <;> rfl

@[simp] theorem repairs_trace (c : Configuration σ V) (p : Parser σ V) (event : TraceEvent) :
    (c.trace p event).repairs = c.repairs := by
  unfold trace
  split
  · simp [Notice.isRepair]
  · rfl

@[simp] theorem count_stack (c : Configuration σ V) (f : Stats → Stats) :
    (c.count f).stack = c.stack := rfl

@[simp] theorem count_stream (c : Configuration σ V) (f : Stats → Stats) :
    (c.count f).stream = c.stream := rfl

@[simp] theorem count_stats (c : Configuration σ V) (f : Stats → Stats) :
    (c.count f).stats = f c.stats := rfl

@[simp] theorem count_memory (c : Configuration σ V) (f : Stats → Stats) :
    (c.count f).memory = c.memory := rfl

@[simp] theorem repairs_count (c : Configuration σ V) (f : Stats → Stats) :
    (c.count f).repairs = c.repairs := rfl

@[simp] theorem push_stack (c : Configuration σ V) (state : StateId) (symbol : Symbol V) :
    (c.push state symbol).stack = c.stack.push state symbol := rfl

@[simp] theorem push_stream (c : Configuration σ V) (state : StateId) (symbol : Symbol V) :
    (c.push state symbol).stream = c.stream := rfl

@[simp] theorem push_memory (c : Configuration σ V) (state : StateId) (symbol : Symbol V) :
    (c.push state symbol).memory = c.memory := rfl

@[simp] theorem push_tokensShifted (c : Configuration σ V) (state : StateId)
    (symbol : Symbol V) : (c.push state symbol).stats.tokensShifted = c.stats.tokensShifted := rfl

@[simp] theorem push_syntaxErrors (c : Configuration σ V) (state : StateId)
    (symbol : Symbol V) : (c.push state symbol).stats.syntaxErrors = c.stats.syntaxErrors := rfl

@[simp] theorem repairs_push (c : Configuration σ V) (state : StateId) (symbol : Symbol V) :
    (c.push state symbol).repairs = c.repairs := rfl

/-! ## Reading -/

/-- Reading changes the stream, and it may tell lexical faults. -/
structure Reads (c : Configuration σ V) (q : Progress σ V) : Prop where
  stack_eq : q.configuration.stack = c.stack
  stats_eq : q.configuration.stats = c.stats
  repairs_eq : q.configuration.repairs = c.repairs
  passing : c.stream.buffering = false
  buffering_eq : q.configuration.stream.buffering = false
  window_eq : q.configuration.stream.window = c.stream.window
  /-- The token that is read is the head of the pending ones. -/
  pending_eq : ∀ token c', q = .running token c' →
    c.stream.pending = Stream'.cons token c'.stream.pending
  fault_of_finished : ∀ result c', q = .finished result c' →
    ∃ fault, result = .error (.scanner fault)

theorem readToken_spec {q : Progress σ V} (h : c.readToken = .ok q) : Reads c q := by
  obtain ⟨d, hnext, h⟩ := bind_eq_ok.mp h
  obtain ⟨hmode, hmode', hwindow, hpending⟩ := TokenStream.next_spec hnext
  simp only at h
  split at h
  · rename_i token htoken
    cases h
    refine ⟨rfl, rfl, repairs_notifyLexical _ _, hmode, hmode', hwindow, ?_, ?_⟩
    · intro _ _ hq
      cases hq
      exact hpending token htoken
    · intro _ _ hq
      cases hq
  · rename_i fault hfault
    cases h
    refine ⟨rfl, rfl, repairs_notifyLexical _ _, hmode, hmode', hwindow, ?_, ?_⟩
    · intro _ _ hq
      cases hq
    · intro _ _ hq
      cases hq
      exact ⟨fault, rfl⟩

/-- Reading in passing is within the contract. -/
theorem exists_readToken (h : c.stream.buffering = false) : ∃ q, c.readToken = .ok q := by
  obtain ⟨d, hnext⟩ := TokenStream.exists_next h
  rw [readToken, hnext]
  simp only [ok_bind]
  split
  · exact ⟨_, rfl⟩
  · exact ⟨_, rfl⟩

/-- What is buffered is read first, and without a fault. -/
theorem readToken_of_buffered {rest : List (Symbol V)} (h : c.stream.buffering = false)
    (hbuf : c.stream.buffered = token :: rest) :
    ∃ c', c.readToken = .ok (.running token c') ∧ c'.stream.buffered = rest := by
  obtain ⟨buffer, hbuffer, hnext⟩ := TokenStream.next_of_buffered h hbuf
  rw [readToken, hnext]
  exact ⟨_, rfl, hbuffer⟩

end Configuration

end ShiftReduce
