import ShiftReduce.Parser.Recovery

/-!
# The parser

In each step the action of the top state on the current token decides:

* a shift pushes the token and reads the next one;
* a reduction replaces a right-hand side by the left-hand side of its rule,
  whose value the actions produce, and follows the goto;
* accepting ends the parse with the value of the top symbol;
* an error is reported and repaired, and the next token is read.

`Parser.step` makes one step and `Parser.run` makes steps until the parse ends.
A table can reduce forever, so both take fuel; with more fuel the outcome is the
same.
-/

namespace ShiftReduce

/-- How a parse ended. -/
structure Outcome (σ V : Type) where
  /-- The value of the accepted symbol, which may have none. -/
  result : Except ParseError (Option V)
  stats : Stats
  notices : Array (Notice V)
  memory : σ

namespace Parser

variable {σ V : Type}

/-- Reduces by a rule. An empty right-hand side stands at the end of the symbol
below. -/
def reduce (p : Parser σ V) (rule : RuleId) (token : Symbol V) (c : Configuration σ V) :
    Checked (Progress σ V) := do
  let info ← p.tables.rule rule
  let depth := c.stack.depth
  if depth ≤ info.length then
    throw (.ruleTooLong rule info.length depth)
  else
    let base := depth - info.length
    let below ← c.stack.symbol (base - 1)
    let args : Args V := ⟨← c.stack.symbolsFrom base, base - 1⟩
    let (value, memory) ← p.actions.reduce rule args c.memory
    let lhs : Symbol V :=
      ⟨info.lhs, args.start?.getD below.stop, args.stop?.getD below.stop, value⟩
    let c := { c with stack := c.stack.truncate base, memory }.count
      fun stats => { stats with reductions := stats.reductions + 1 }
    let c := c.trace p (.reduce rule info.lhs info.length)
    let state ← c.stack.topState
    match ← p.tables.goto state lhs.id with
    | .shift next => return .running token (c.push next lhs)
    | .accept => return .finished (.ok value) (c.trace p .accept)
    | found => throw (.strayNonterminal lhs.id state found)

/-- Reports the current token as a syntax error and repairs it. -/
def repair (p : Parser σ V) (fuel : Nat) (token : Symbol V) (c : Configuration σ V) :
    Fueled (Progress σ V) := do
  let c := (c.count fun stats => { stats with syntaxErrors := stats.syntaxErrors + 1 }).notify
    (.syntaxError token)
  if !p.settings.recovery then
    return .finished (.error (.unrecoverable .recoveryDisabled token.start)) c
  else if p.settings.maxErrors < c.stats.syntaxErrors then
    return .finished (.error (.unrecoverable .tooManyErrors token.start)) c
  else
    match ← Recovery.recover p fuel token c with
    | .repaired c =>
      (c.count fun stats =>
        { stats with errorsRecovered := stats.errorsRecovered + 1 }).readToken
    | .aborted e c => return .finished (.error e) c

/-- Makes one step at the current token. -/
def step (p : Parser σ V) (fuel : Nat) (token : Symbol V) (c : Configuration σ V) :
    Fueled (Progress σ V) := do
  let entry ← c.stack.top
  match ← p.tables.action entry.state token.id with
  | .shift next =>
    let c := (c.trace p (.shift next token.id)).count
      fun stats => { stats with tokensShifted := stats.tokensShifted + 1 }
    (c.push next token).readToken
  | .reduce rule => p.reduce rule token c
  | .accept => return .finished (.ok entry.symbol.value) (c.trace p .accept)
  | .error => p.repair fuel token c

/-- Makes steps until the parse ends. The fuel bounds the number of steps, and
what is left of it bounds the loops inside each step. -/
def run (p : Parser σ V) : Nat → Progress σ V → Fueled (Outcome σ V)
  | _, .finished result c => .ok ⟨result, c.stats, c.notices, c.memory⟩
  | 0, .running _ _ => .error .outOfFuel
  | fuel + 1, .running token c => do p.run fuel (← p.step fuel token c)

/-- Parses a stream from the start state. -/
def parseStream (p : Parser σ V) (fuel : Nat) (stream : TokenStream V) (memory : σ) :
    Fueled (Outcome σ V) := do
  p.run fuel (← (Configuration.initial stream memory).readToken)

/-- Parses what a scanner delivers. -/
def parse (p : Parser σ V) (fuel : Nat) (scanner : Scanner V) (memory : σ) :
    Fueled (Outcome σ V) := do
  p.parseStream fuel (← TokenStream.ofScanner scanner p.settings.window p.slotBytes) memory

/-- The token that stands before the input to select one of several goals. -/
def goalMarker (marker : SymbolId) : Symbol V := .empty marker .zero .zero

/-- Parses what a scanner delivers behind a marker. -/
def parseGoal (p : Parser σ V) (fuel : Nat) (scanner : Scanner V) (marker : SymbolId)
    (memory : σ) : Fueled (Outcome σ V) := do
  let stream ← TokenStream.ofScanner scanner p.settings.window p.slotBytes
  p.parseStream fuel (← stream.withLeading (goalMarker marker)) memory

/-- The inspection text of a parser after a parse: where its notices go, its
settings and the counters of the parse. -/
def inspect (p : Parser σ V) (sink : String) (stats : Stats) : String :=
  Text.openRecord "Parser"
    [("events", sink),
     ("config", p.settings.inspect),
     ("stats", stats.inspect)]

end Parser

end ShiftReduce
