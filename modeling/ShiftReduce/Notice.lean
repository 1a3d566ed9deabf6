import ShiftReduce.Scanner

/-!
# Notices

Whatever a parse has to tell is a notice: lexical faults, syntax errors, the
repairs of syntax errors and, if asked for, a trace of each move. Notices other
than traces have a line of text for the user:

* `line:column: Lexical Error: …` for lexical faults;
* `start-stop: Syntax Error: …` for syntax errors;
* `start-stop: Recovered: …` for repairs.
-/

namespace ShiftReduce

/-- A way to repair a syntax error. -/
inductive Strategy where
  /-- Insert a missing token. -/
  | insertion
  /-- Replace a misspelled token. -/
  | replacement
  /-- Delete an unexpected token. -/
  | deletion
  /-- Put the error symbol in the place of a phrase. -/
  | phrase
  deriving DecidableEq, Repr

/-- One move of the parser. -/
inductive TraceEvent where
  | shift (state : StateId) (symbol : SymbolId)
  | reduce (rule : RuleId) (lhs : SymbolId) (length : Nat)
  | accept
  /-- A strategy has ended. `unwound` entries were taken off the stack in search
  of a state that shifts the error symbol, and `reduced` entries of the repaired
  stack were replaced in the simulation that confirmed the repair. -/
  | recovery (strategy : Strategy) (state : StateId) (succeeded : Bool) (unwound reduced : Nat)
  deriving DecidableEq, Repr

/-- What a parse has to tell. -/
inductive Notice (V : Type) where
  | lexicalError (e : LexicalError)
  /-- The token does not fit where it stands. -/
  | syntaxError (token : Symbol V)
  /-- Recovery took the token out of the input. -/
  | removed (token : Symbol V)
  /-- Recovery put the token into the input. -/
  | inserted (token : Symbol V)
  /-- Recovery gave the token the id it now has. -/
  | replaced (token : Symbol V)
  /-- Recovery put the error symbol in the place of the source it covers. -/
  | phraseRemoved (phrase : Symbol V)
  | trace (event : TraceEvent)
  deriving DecidableEq, Repr

namespace Notice

variable {V : Type}

/-- The symbol that a notice is about. -/
def symbol? : Notice V → Option (Symbol V)
  | syntaxError s => some s
  | removed s => some s
  | inserted s => some s
  | replaced s => some s
  | phraseRemoved s => some s
  | lexicalError _ => none
  | trace _ => none

def traced? : Notice V → Option TraceEvent
  | trace event => some event
  | _ => none

def isTrace (n : Notice V) : Bool := n.traced?.isSome

/-- The notices for the user. -/
def diagnostics (ns : List (Notice V)) : List (Notice V) := ns.filter fun n => !n.isTrace

def traces (ns : List (Notice V)) : List TraceEvent := ns.filterMap traced?

variable [Inspect V]

/-- The line of text for the user. -/
def line? : Notice V → Option String
  | lexicalError e => some s!"{e.position.render}: Lexical Error: {e.message}"
  | syntaxError s =>
    some s!"{s.span.render}: Syntax Error: unexpected token {s.describe}"
  | removed s =>
    some s!"{s.span.render}: Recovered: unexpected token {s.describe} was removed"
  | inserted s =>
    some s!"{s.span.render}: Recovered: missing token {s.describe} was inserted"
  | replaced s =>
    some s!"{s.span.render}: Recovered: misspelled token {s.describe} was replaced with #{s.id.toNat}"
  | phraseRemoved s => some s!"{s.span.render}: Recovered: error phrase was removed"
  | trace _ => none

end Notice

end ShiftReduce
