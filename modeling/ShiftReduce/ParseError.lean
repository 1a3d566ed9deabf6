import ShiftReduce.Scanner

/-!
# Parse errors

A parse fails when a syntax error cannot be repaired or when the scanner
reports a fault other than a lexical one.
-/

namespace ShiftReduce

/-- Why a syntax error could not be repaired. -/
inductive Unrecoverable where
  /-- The input ends where it cannot end. -/
  | endOfInput
  /-- No state on the stack shifts the error symbol. -/
  | noErrorState
  /-- The input ended before the parse could go on behind the error phrase. -/
  | inputExhausted
  | recoveryDisabled
  | tooManyErrors
  deriving DecidableEq, Repr

def Unrecoverable.message : Unrecoverable → String
  | endOfInput => "unexpected end of input"
  | noErrorState => "no state on the stack accepts the error symbol"
  | inputExhausted => "input ended while discarding the error phrase"
  | recoveryDisabled => "error recovery is disabled"
  | tooManyErrors => "too many syntax errors"

/-- How a parse can fail. -/
inductive ParseError where
  | unrecoverable (reason : Unrecoverable) (position : Position)
  | scanner (fault : ScanError)
  deriving DecidableEq, Repr

namespace ParseError

def message : ParseError → String
  | unrecoverable reason position =>
    s!"Cannot recover from the syntax error at {position.render}: {reason.message}"
  | scanner fault => fault.message

/-- Why recovery gave up, if that is what happened. -/
def reason? : ParseError → Option Unrecoverable
  | unrecoverable reason _ => some reason
  | scanner _ => none

end ParseError

end ShiftReduce
