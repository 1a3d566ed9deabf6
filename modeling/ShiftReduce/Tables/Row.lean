import ShiftReduce.Tables.Cell

/-!
# Rows

The row of a state is its part of the recorded entries. Compressing a row takes
out its most frequent reduction, which becomes the default of the state.
-/

namespace ShiftReduce.Tables

/-- The entries of one state, by ascending symbol. -/
abbrev Row := List (SymbolId × Action)

namespace Row

def ofCells (cells : List Cell) (state : StateId) : Row :=
  cells.filterMap fun c => if c.state == state then some (c.symbol, c.action) else none

/-- The rules that a row reduces by, once for each entry. -/
def reductions (row : Row) : List RuleId :=
  row.filterMap fun (_, action) =>
    match action with
    | .reduce rule => some rule
    | _ => none

/-- Whether `r` occurs more often in a list than `best`, or as often and is the
lower rule. -/
def preferred (rules : List RuleId) (r best : RuleId) : Bool :=
  rules.count best < rules.count r || (rules.count r == rules.count best && r < best)

/-- The most frequent rule of a list, the lowest of several. -/
def mostFrequent (rules : List RuleId) : Option RuleId :=
  rules.foldl
    (fun best r =>
      match best with
      | none => some r
      | some b => if preferred rules r b then some r else some b)
    none

/-- The rule that a row reduces by if it is compressed. -/
def defaultRule (row : Row) : Option RuleId := mostFrequent row.reductions

/-- A row without the entries that its default covers. -/
def compress (row : Row) : Row :=
  match row.defaultRule with
  | some rule => row.filter fun (_, action) => action != .reduce rule
  | none => row

/-- The action of a compressed row on symbols without an entry. -/
def defaultAction (row : Row) : Action :=
  match row.defaultRule with
  | some rule => .reduce rule
  | none => .error

end Row

end ShiftReduce.Tables
