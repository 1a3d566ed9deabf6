import ShiftReduce.Tables.Packed

/-!
# Lookaheads

The terminals that are valid in a state are those with an entry other than the
error action. `Lookaheads` runs through them in ascending order. Defaults hide
which terminals are valid, so in compressed tables it finds none.
-/

namespace ShiftReduce

/-- A place in the terminals that are valid in one state. -/
structure Lookaheads where
  tables : PackedTables
  state : StateId
  /-- The next terminal to look at. -/
  next : Nat
  /-- The first number past the terminals. -/
  stop : Nat

namespace Lookaheads

/-- The largest number of terminals still to come. -/
def sizeBound (c : Lookaheads) : Nat := c.stop - c.next

/-- The next valid terminal, and the place behind it. -/
def next? (c : Lookaheads) : Checked (Option (SymbolId × Lookaheads)) :=
  if _h : c.next < c.stop then do
    let terminal := UInt16.ofNat c.next
    let rest := { c with next := c.next + 1 }
    if ← c.tables.hasLookahead c.state terminal then return some (terminal, rest)
    else rest.next?
  else .ok none
termination_by c.stop - c.next

def toList (c : Lookaheads) : Checked (List SymbolId) :=
  if _h : c.next < c.stop then do
    let terminal := UInt16.ofNat c.next
    let valid ← c.tables.hasLookahead c.state terminal
    let rest ← { c with next := c.next + 1 : Lookaheads }.toList
    return if valid then terminal :: rest else rest
  else .ok []
termination_by c.stop - c.next

end Lookaheads

namespace PackedTables

/-- The terminals that are valid in a state, ascending. -/
def lookaheads (t : PackedTables) (s : StateId) : Lookaheads :=
  ⟨t, s, 0, if t.compressed then 0 else t.terminalCount⟩

/-- The least terminal that is valid in a state, the end of input aside. -/
def firstTerminal (t : PackedTables) (s : StateId) : Checked (Option SymbolId) := do
  return (← (t.lookaheads s).toList).find? (· != eof)

end PackedTables

end ShiftReduce
