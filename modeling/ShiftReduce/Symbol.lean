import ShiftReduce.Position
import ShiftReduce.Text.Record
import ShiftReduce.Value

/-!
# Symbols

Terminals delivered by a scanner and nonterminals produced by reductions share
one record: a grammar id, the span of source it covers, and an optional value.
Ids are 16-bit words. Terminals come first, starting with the end of input,
and nonterminals follow.
-/

namespace ShiftReduce

/-- The id of a grammar symbol. -/
abbrev SymbolId := UInt16

/-- The id of an automaton state. -/
abbrev StateId := UInt16

/-- The number of a grammar rule. -/
abbrev RuleId := UInt16

/-- The terminal that ends every input. -/
def eof : SymbolId := 0

/-- The state in which every parse starts. -/
def startState : StateId := 0

/-- A grammar symbol with its span and value. -/
structure Symbol (V : Type) where
  id : SymbolId
  start : Position
  stop : Position
  value : Option V
  deriving DecidableEq, Repr

namespace Symbol

variable {V : Type}

/-- A symbol without a value, such as a synthetic token. -/
def empty (id : SymbolId) (start stop : Position) : Symbol V :=
  ⟨id, start, stop, none⟩

/-- The end-of-input token at a position. -/
def endOfInput (pos : Position) : Symbol V := empty eof pos pos

def isEof (s : Symbol V) : Bool := s.id == eof

def span (s : Symbol V) : Span := ⟨s.start, s.stop⟩

variable [Inspect V]

/-- The value, or the number sign and the id where there is none. -/
def describe (s : Symbol V) : String :=
  match s.value with
  | some v => Inspect.inspect v
  | none => s!"#{s.id.toNat}"

def inspect (s : Symbol V) : String :=
  Text.record "Symbol"
    [("id", toString s.id.toNat),
     ("start", s.start.inspect),
     ("end", s.stop.inspect),
     ("value", Text.optional (s.value.map Inspect.inspect))]

end Symbol

end ShiftReduce
