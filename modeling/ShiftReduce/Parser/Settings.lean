import ShiftReduce.TokenStream

/-!
# Settings of a parser
-/

namespace ShiftReduce

/-- What a parser can be told. -/
structure Settings where
  /-- Whether syntax errors are repaired. -/
  recovery : Bool
  /-- The number of syntax errors after which the parse is given up. -/
  maxErrors : Nat
  /-- The number of tokens that must be read to confirm a repair. A wider window
  rejects more repairs that only look good for a token or two. Zero counts as
  one. -/
  window : Nat
  /-- Whether each move is traced. -/
  trace : Bool
  deriving DecidableEq, Repr

namespace Settings

/-- The settings of a parser that is not told anything. -/
def standard : Settings :=
  { recovery := true
    maxErrors := 100
    window := TokenStream.defaultWindow
    trace := false }

def inspect (s : Settings) : String :=
  Text.record "ParserConfig"
    [("error_recovery", Text.bool s.recovery),
     ("max_errors", toString s.maxErrors),
     ("lookahead_window", toString s.window),
     ("trace_events", Text.bool s.trace)]

end Settings

end ShiftReduce
