import ShiftReduce.Stack
import ShiftReduce.Tables.Packed
import ShiftReduce.TokenStream

/-!
# Simulation

Recovery asks whether a parse could go on from a stack of states. A simulation
finds out without values and without actions: reductions only drop states and
follow the goto. It reads the stream in buffering mode, so that the tokens come
again, and it succeeds

* if the automaton accepts, or
* if a token has been shifted and a window of tokens has been read.

It fails at the first error action, at a reduction that would take the bottom
state off, and at a goto that neither shifts nor accepts.
-/

namespace ShiftReduce

/-- The states of a simulated automaton, and the least depth they have had. -/
structure Simulator where
  states : Stack StateId
  lowestDepth : Nat

/-- What became of one terminal. -/
inductive Verdict where
  | shifted
  | accepted
  | refused
  deriving DecidableEq, Repr

namespace Simulator

def ofStates (base : Array StateId) : Simulator := ⟨Stack.empty.copyFrom base, base.size⟩

def enter (sim : Simulator) (state : StateId) : Simulator :=
  { sim with states := sim.states.push state }

/-- Drops the states above a depth. -/
def dropTo (sim : Simulator) (depth : Nat) : Simulator :=
  ⟨sim.states.truncate depth, min sim.lowestDepth depth⟩

/-- Drops the right-hand side of a rule and looks up the goto. The bottom state
stays: a rule that would drop it has the error action. -/
def reduce (tables : PackedTables) (rule : RuleId) (sim : Simulator) :
    Checked (Action × Simulator) := do
  let info ← tables.rule rule
  if sim.states.size ≤ info.length then return (.error, sim)
  else
    let sim := sim.dropTo (sim.states.size - info.length)
    match sim.states.top? with
    | some state => return (← tables.goto state info.lhs, sim)
    | none => return (.error, sim)

/-- Reduces as long as the automaton does before one terminal, and then shifts
it, accepts or fails. The fuel bounds the number of reductions. -/
def advance (tables : PackedTables) (terminal : SymbolId) :
    Nat → Simulator → Fueled (Verdict × Simulator)
  | 0, _ => .error .outOfFuel
  | fuel + 1, sim =>
    match sim.states.top? with
    | none => .ok (.refused, sim)
    | some state => do
      match ← tables.action state terminal with
      | .shift next => return (.shifted, sim.enter next)
      | .accept => return (.accepted, sim)
      | .error => return (.refused, sim)
      | .reduce rule =>
        let (found, sim) ← reduce tables rule sim
        match found with
        | .shift next => advance tables terminal fuel (sim.enter next)
        | .accept => return (.accepted, sim)
        | .reduce _ => return (.refused, sim)
        | .error => return (.refused, sim)

end Simulator

/-- The result of a simulation. -/
structure Simulation (V : Type) where
  /-- Whether it succeeded, unless the scanner reported a fault. -/
  succeeded : Except ScanError Bool
  simulator : Simulator
  stream : TokenStream V
  /-- The lexical faults met on the way. -/
  lexical : List LexicalError

namespace Simulation

variable {V : Type}

/-- Simulates one token and then at most `more` further ones. -/
def runTokens (tables : PackedTables) (fuel : Nat) (more : Nat) (sim : Simulator)
    (stream : TokenStream V) (lexical : List LexicalError) : Fueled (Simulation V) := do
  let delivery ← stream.nextBuffered
  let stream := delivery.stream
  let lexical := lexical ++ delivery.lexical
  match delivery.result with
  | .error fault => return ⟨.error fault, sim, stream, lexical⟩
  | .ok token =>
    let (verdict, sim) ← sim.advance tables token.id fuel
    match verdict with
    | .accepted => return ⟨.ok true, sim, stream, lexical⟩
    | .refused => return ⟨.ok false, sim, stream, lexical⟩
    | .shifted =>
      match more with
      | 0 => return ⟨.ok true, sim, stream, lexical⟩
      | more + 1 => runTokens tables fuel more sim stream lexical

/-- Simulates a parse from a stack of states, until the stream is full. -/
def run (tables : PackedTables) (fuel : Nat) (base : Array StateId) (stream : TokenStream V) :
    Fueled (Simulation V) :=
  runTokens tables fuel (stream.window - stream.read - 1) (.ofStates base) stream []

end Simulation

end ShiftReduce
