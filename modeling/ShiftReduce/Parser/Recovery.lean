import ShiftReduce.Parser.Configuration
import ShiftReduce.Tables.Lookaheads

/-!
# Recovery from syntax errors

The offending token goes back to the head of the stream, which starts to
buffer. Then four strategies are tried in order:

1. `insertMissing` inserts a token in front of it;
2. `replaceMisspelled` gives it another id;
3. `deleteUnexpected` takes it out;
4. `replacePhrase` takes entries off the stack until the error symbol can be
   shifted, shifts it, and discards tokens until the parse can go on.

The first two try the terminals that are valid in the current state, in
ascending order, without the end of input. Each repair is made on the buffered
stream and confirmed by a simulation. If none is confirmed, the strategy puts
the stream back as it was. After a repair the stream passes through again, and
the parse reads the tokens as they have been edited.
-/

namespace ShiftReduce

/-- What became of a syntax error. -/
inductive Repair (σ V : Type) where
  /-- The parse can go on. -/
  | repaired (c : Configuration σ V)
  /-- The parse has to be given up. -/
  | aborted (e : ParseError) (c : Configuration σ V)

/-- What became of an attempt to repair a syntax error. -/
inductive Attempt (σ V : Type) where
  /-- No other attempt is needed. -/
  | settled (r : Repair σ V)
  /-- Nothing has been changed. -/
  | failed (c : Configuration σ V)

/-- Makes a second attempt if the first one failed. -/
def Attempt.orElse {σ V : Type} (first : Attempt σ V)
    (second : Configuration σ V → Fueled (Attempt σ V)) : Fueled (Attempt σ V) :=
  match first with
  | .settled r => .ok (.settled r)
  | .failed c => second c

/-- Makes a last attempt if the ones before failed. -/
def Attempt.orFinally {σ V : Type} (first : Attempt σ V)
    (last : Configuration σ V → Fueled (Repair σ V)) : Fueled (Repair σ V) :=
  match first with
  | .settled r => .ok r
  | .failed c => last c

namespace Recovery

variable {σ V : Type}

/-- Traces the success of a strategy, of which a simulation was the proof. -/
def traceSuccess (p : Parser σ V) (strategy : Strategy) (state : StateId) (unwound : Nat)
    (simulation : Simulation V) (c : Configuration σ V) : Configuration σ V :=
  let reduced := c.stack.depth - simulation.simulator.lowestDepth
  c.trace p (.recovery strategy state true unwound reduced)

/-- Traces the failure of a strategy. -/
def traceFailure (p : Parser σ V) (strategy : Strategy) (state : StateId) (unwound : Nat)
    (c : Configuration σ V) : Configuration σ V :=
  c.trace p (.recovery strategy state false unwound 0)

/-- Changes the first buffered token. -/
def modifyHead (f : Symbol V → Symbol V) (c : Configuration σ V) : Configuration σ V :=
  { c with stream := c.stream.modify 0 f }

/-- Tells something about the first buffered token, if there is one. -/
def notifyHead (notice : Symbol V → Notice V) (c : Configuration σ V) : Configuration σ V :=
  match c.stream.peek? 0 with
  | some token => c.notify (notice token)
  | none => c

/-- Gives the first buffered token one id after another until a simulation
succeeds. -/
def tryIds (p : Parser σ V) (fuel : Nat) (strategy : Strategy) (state : StateId)
    (notice : Symbol V → Notice V) : List SymbolId → Configuration σ V → Fueled (Attempt σ V)
  | [], c => .ok (.failed c)
  | id :: ids, c => do
    let (simulation, c) ← (modifyHead ({ · with id }) c).simulate p fuel
    match simulation.succeeded with
    | .ok true =>
      return .settled
        (.repaired (notifyHead notice (traceSuccess p strategy state 0 simulation c)))
    | .ok false => tryIds p fuel strategy state notice ids c
    | .error fault => return .settled (.aborted (.scanner fault) c)

/-- Inserts one of the candidates in front of the offending token. It has no
value, and it is empty at the end of the symbol below. -/
def insertMissing (p : Parser σ V) (fuel : Nat) (state : StateId) (candidates : List SymbolId)
    (c : Configuration σ V) : Fueled (Attempt σ V) :=
  match candidates with
  | [] => .ok (.failed c)
  | first :: _ => do
    let pos := (← c.stack.topSymbol).stop
    let c := { c with stream := ← c.stream.insert 0 (.empty first pos pos) }
    (← tryIds p fuel .insertion state .inserted candidates c).orElse fun c => do
      let (_, stream) ← c.stream.remove 0
      return .failed (traceFailure p .insertion state 0 { c with stream })

/-- Gives the offending token the id of one of the candidates. -/
def replaceMisspelled (p : Parser σ V) (fuel : Nat) (state : StateId)
    (candidates : List SymbolId) (c : Configuration σ V) : Fueled (Attempt σ V) :=
  match candidates, c.stream.peek? 0 with
  | [], _ => .ok (.failed c)
  | _, none => .ok (.failed c)
  | _, some token => do
    let others := candidates.filter (· != token.id)
    (← tryIds p fuel .replacement state .replaced others c).orElse fun c =>
      return .failed
        (traceFailure p .replacement state 0 (modifyHead ({ · with id := token.id }) c))

/-- Takes the offending token out. -/
def deleteUnexpected (p : Parser σ V) (fuel : Nat) (state : StateId) (c : Configuration σ V) :
    Fueled (Attempt σ V) := do
  let (token, stream) ← (← c.stream.rewind).remove 0
  let (simulation, c) ← { c with stream }.simulate p fuel
  match simulation.succeeded with
  | .ok true =>
    let c := traceSuccess p .deletion state 0 simulation c
    return .settled (.repaired (c.notify (.removed token)))
  | .ok false =>
    let c := { c with stream := ← c.stream.insert 0 token }
    return .failed (traceFailure p .deletion state 0 c)
  | .error fault => return .settled (.aborted (.scanner fault) c)

/-! ## Error phrases -/

/-- Searches the lowest `depth` entries of a stack, from the top of them down, for
a state that shifts the error symbol. Returns the depth up to that state and the
state entered from it. -/
def errorShift? (tables : PackedTables) (error : SymbolId) (stack : ParseStack V) :
    Nat → Checked (Option (Nat × StateId))
  | 0 => .ok none
  | depth + 1 =>
    match stack.entries.get? depth with
    | none => .ok none
    | some entry => do
      match ← tables.goto entry.state error with
      | .shift target => return some (depth + 1, target)
      | _ => errorShift? tables error stack depth

/-- The error symbol in the place of the entries above a depth. Without such
entries it is empty at the head of the input. -/
def phraseSymbol (error : SymbolId) (stack : ParseStack V) (depth : Nat) (head : Position) :
    Symbol V :=
  let unwound := stack.symbols.extract depth stack.depth
  .empty error
    ((unwound[0]?.map Symbol.start).getD head)
    ((unwound.back?.map Symbol.stop).getD head)

/-- Discards tokens, each of which widens the phrase on top of the stack, until
a simulation succeeds. The end of the input is not discarded. -/
def widenPhrase (p : Parser σ V) (state : StateId) (unwound : Nat) :
    Nat → Configuration σ V → Fueled (Repair σ V)
  | 0, _ => .error .outOfFuel
  | fuel + 1, c => do
    let (simulation, c) ← c.simulate p fuel
    match simulation.succeeded with
    | .error fault => return .aborted (.scanner fault) c
    | .ok true =>
      let c := traceSuccess p .phrase state unwound simulation c
      return .repaired (c.notify (.phraseRemoved (← c.stack.topSymbol)))
    | .ok false =>
      let (token, stream) ← c.stream.remove 0
      let c := { c with stream }
      if token.isEof then
        return .aborted (.unrecoverable .inputExhausted token.start)
          (traceFailure p .phrase state unwound c)
      else
        let stack ← c.stack.modifyTopSymbol ({ · with stop := token.stop })
        widenPhrase p state unwound fuel { c with stack }

/-- Puts the error symbol in the place of a phrase. -/
def replacePhrase (p : Parser σ V) (fuel : Nat) (state : StateId) (c : Configuration σ V) :
    Fueled (Repair σ V) := do
  let below ← c.stack.topSymbol
  let head := ((c.stream.peek? 0).map Symbol.start).getD below.stop
  match p.tables.errorSymbol with
  | none =>
    return .aborted (.unrecoverable .noErrorState head) (traceFailure p .phrase state 0 c)
  | some error =>
    match ← errorShift? p.tables error c.stack c.stack.depth with
    | none =>
      return .aborted (.unrecoverable .noErrorState head)
        (traceFailure p .phrase state (c.stack.depth - 1) c)
    | some (depth, target) =>
      let phrase := phraseSymbol error c.stack depth head
      let unwound := c.stack.depth - depth
      let c := { c with stack := c.stack.truncate depth }.push target phrase
      widenPhrase p state unwound fuel c

/-! ## All strategies -/

/-- The terminals that could stand in a state instead of an offending token. -/
def candidates (tables : PackedTables) (state : StateId) : Checked (List SymbolId) := do
  return (← (tables.lookaheads state).toList).filter (· != eof)

/-- Repairs the syntax error that a token is. The end of the input cannot be
repaired. -/
def recover (p : Parser σ V) (fuel : Nat) (token : Symbol V) (c : Configuration σ V) :
    Fueled (Repair σ V) := do
  if token.isEof then
    return .aborted (.unrecoverable .endOfInput token.start) c
  else
    let state ← c.stack.topState
    let stream ← (c.stream.setBuffering true).insert 0 token
    let ids ← candidates p.tables state
    let inserted ← insertMissing p fuel state ids { c with stream }
    let replaced ← inserted.orElse (replaceMisspelled p fuel state ids)
    let deleted ← replaced.orElse (deleteUnexpected p fuel state)
    match ← deleted.orFinally (replacePhrase p fuel state) with
    | .repaired c => return .repaired { c with stream := c.stream.setBuffering false }
    | .aborted e c => return .aborted e c

end Recovery

end ShiftReduce
