import ShiftReduce.Breach

/-!
# Statistics of a parse
-/

namespace ShiftReduce

/-- Counters of what happened in a parse. -/
structure Stats where
  /-- Terminals shifted, inserted ones among them. -/
  tokensShifted : Nat
  reductions : Nat
  syntaxErrors : Nat
  /-- Syntax errors that were repaired. -/
  errorsRecovered : Nat
  /-- Trial runs of recovery. -/
  simulations : Nat
  /-- The greatest depth to which an entry was pushed. -/
  maxDepth : Nat
  deriving DecidableEq, Repr

namespace Stats

def zero : Stats := ⟨0, 0, 0, 0, 0, 0⟩

/-- The sum of two counters, which has to fit a 64-bit word. -/
def add (a b : Nat) : Checked Nat :=
  if a + b < UInt64.size then .ok (a + b) else .error .addOverflow

/-- The counters of two parses together. Depths do not add up. -/
def merge (a b : Stats) : Checked Stats := do
  return {
    tokensShifted := ← add a.tokensShifted b.tokensShifted
    reductions := ← add a.reductions b.reductions
    syntaxErrors := ← add a.syntaxErrors b.syntaxErrors
    errorsRecovered := ← add a.errorsRecovered b.errorsRecovered
    simulations := ← add a.simulations b.simulations
    maxDepth := max a.maxDepth b.maxDepth }

def inspect (s : Stats) : String :=
  Text.record "ParseStats"
    [("tokens_shifted", toString s.tokensShifted),
     ("reductions", toString s.reductions),
     ("syntax_errors", toString s.syntaxErrors),
     ("errors_recovered", toString s.errorsRecovered),
     ("simulations", toString s.simulations),
     ("max_depth", toString s.maxDepth)]

end Stats

end ShiftReduce
