import ShiftReduce.Action

/-!
# Recorded entries

The entries of a table under construction are kept in one list, sorted by state
and then by symbol, with at most one entry for each of the two together. So the
list depends on which entries were recorded and not on when.
-/

namespace ShiftReduce.Tables

/-- An action recorded for a symbol in a state. -/
structure Cell where
  state : StateId
  symbol : SymbolId
  action : Action
  deriving DecidableEq, Repr

namespace Cell

/-- Whether one cell is recorded for the same state and symbol as another. -/
def samePlace (a b : Cell) : Bool := a.state == b.state && a.symbol == b.symbol

/-- Whether one cell stands before another: by state, then by symbol. -/
def before (a b : Cell) : Bool :=
  a.state < b.state || (a.state == b.state && a.symbol < b.symbol)

def find? (cells : List Cell) (state : StateId) (symbol : SymbolId) : Option Action :=
  (cells.find? fun c => c.state == state && c.symbol == symbol).map Cell.action

/-- Puts a cell in its place. A place that is taken keeps its cell. -/
def insert (c : Cell) : List Cell → List Cell
  | [] => [c]
  | d :: rest =>
    if c.before d then c :: d :: rest
    else if c.samePlace d then d :: rest
    else d :: insert c rest

end Cell

end ShiftReduce.Tables
