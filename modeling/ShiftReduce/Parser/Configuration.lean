import ShiftReduce.Notice
import ShiftReduce.ParseError
import ShiftReduce.ParseStack
import ShiftReduce.Parser.Settings
import ShiftReduce.Parser.Simulation
import ShiftReduce.Parser.Stats
import ShiftReduce.Reduction

/-!
# Configurations of a parse

A parser consists of its tables, its actions and its settings, and it knows how
much room a token takes. While it runs, everything that changes is in a
`Configuration`: the automaton stack, the token stream, the counters, the notices
so far, and the memory of the actions.
-/

namespace ShiftReduce

structure Parser (σ V : Type) where
  tables : PackedTables
  actions : Actions σ V
  settings : Settings
  /-- The bytes of a slot for a token, which depend on the type of the values. -/
  slotBytes : Nat := TokenStream.valueSlotBytes

/-- The state of a running parse. -/
structure Configuration (σ V : Type) where
  stack : ParseStack V
  stream : TokenStream V
  stats : Stats
  /-- What the parse has told so far, in order. -/
  notices : Array (Notice V)
  /-- The memory of the actions. -/
  memory : σ

/-- Where a parse stands between two moves. -/
inductive Progress (σ V : Type) where
  /-- The parse goes on at a token. -/
  | running (token : Symbol V) (c : Configuration σ V)
  /-- The parse has ended. -/
  | finished (result : Except ParseError (Option V)) (c : Configuration σ V)

namespace Configuration

variable {σ V : Type}

/-- The start state alone on the stack, and nothing read. -/
def initial (stream : TokenStream V) (memory : σ) : Configuration σ V :=
  { stack := .ofState startState, stream, stats := .zero, notices := #[], memory }

def notify (c : Configuration σ V) (n : Notice V) : Configuration σ V :=
  { c with notices := c.notices.push n }

def notifyLexical (c : Configuration σ V) (faults : List LexicalError) : Configuration σ V :=
  { c with notices := c.notices ++ (faults.map Notice.lexicalError).toArray }

/-- Traces a move, if the parser traces. -/
def trace (c : Configuration σ V) (p : Parser σ V) (event : TraceEvent) : Configuration σ V :=
  if p.settings.trace then c.notify (.trace event) else c

def count (c : Configuration σ V) (f : Stats → Stats) : Configuration σ V :=
  { c with stats := f c.stats }

/-- Pushes an entry and takes note of the depth. -/
def push (c : Configuration σ V) (state : StateId) (symbol : Symbol V) : Configuration σ V :=
  let stack := c.stack.push state symbol
  { c with
    stack
    stats := { c.stats with maxDepth := max c.stats.maxDepth stack.depth } }

/-- Reads the next token. A fault of the scanner ends the parse. -/
def readToken (c : Configuration σ V) : Checked (Progress σ V) := do
  let delivery ← c.stream.next
  let c := { c with stream := delivery.stream }.notifyLexical delivery.lexical
  match delivery.result with
  | .ok token => return .running token c
  | .error fault => return .finished (.error (.scanner fault)) c

/-- Simulates the parse from where it stands, over the buffered stream. -/
def simulate (c : Configuration σ V) (p : Parser σ V) (fuel : Nat) :
    Fueled (Simulation V × Configuration σ V) := do
  let stream ← c.stream.rewind
  let simulation ← Simulation.run p.tables fuel c.stack.states stream
  let c := { c with stream := simulation.stream }.count
    fun stats => { stats with simulations := stats.simulations + 1 }
  return (simulation, c.notifyLexical simulation.lexical)

end Configuration

end ShiftReduce
