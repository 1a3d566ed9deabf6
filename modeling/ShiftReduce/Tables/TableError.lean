import ShiftReduce.Action

/-!
# Table errors

All that can be wrong with a table, whether it is built from declarations or
given as arrays. The wording is in `TableError.message`.
-/

namespace ShiftReduce

/-- The two kinds of grammar symbols. -/
inductive SymbolKind where
  | terminal
  | nonterminal
  deriving DecidableEq, Repr

def SymbolKind.name : SymbolKind → String
  | terminal => "terminal"
  | nonterminal => "nonterminal"

/-- What a table can have too many of. -/
inductive Quantity where
  | states
  | rules
  | terminals
  deriving DecidableEq, Repr

def Quantity.name : Quantity → String
  | states => "states"
  | rules => "rules"
  | terminals => "terminals"

/-- An array whose length has to match another. -/
inductive PartName where
  | gotoOffsets
  | owners
  | defaults
  deriving DecidableEq, Repr

def PartName.name : PartName → String
  | gotoOffsets => "goto_offsets"
  | owners => "lookaheads"
  | defaults => "default_actions"

/-- What can be wrong with a table. -/
inductive TableError where
  /-- Two different actions for one symbol in one state. -/
  | conflict (state : StateId) (symbol : SymbolId)
  /-- The start state is never entered again. -/
  | shiftToStartState (state : StateId)
  /-- A terminal where a nonterminal belongs, or the other way round. -/
  | wrongSymbolKind (state : StateId) (symbol : SymbolId) (expected : SymbolKind)
  | unknownRule (rule : RuleId)
  | unknownState (state : StateId)
  | invalidErrorSymbol (symbol : SymbolId)
  | invalidLhs (rule : RuleId) (lhs : SymbolId)
  /-- A number that the codes cannot hold. -/
  | overflow (what : Quantity) (count : Nat)
  /-- Two arrays disagree in length. -/
  | partLength (part : PartName) (expected actual : Nat)
  deriving DecidableEq, Repr

def TableError.message : TableError → String
  | conflict state symbol =>
    s!"conflicting entries for symbol {symbol.toNat} in state {state.toNat}"
  | shiftToStartState state => s!"state {state.toNat} shifts to the start state"
  | wrongSymbolKind state symbol expected =>
    s!"symbol {symbol.toNat} in state {state.toNat} is not a {expected.name}"
  | unknownRule rule => s!"rule {rule.toNat} is not defined"
  | unknownState state => s!"state {state.toNat} is not defined"
  | invalidErrorSymbol symbol => s!"error symbol {symbol.toNat} is not a nonterminal"
  | invalidLhs rule lhs =>
    s!"rule {rule.toNat} has left-hand side {lhs.toNat}, which is not a nonterminal"
  | overflow what count => s!"too many {what.name} to encode: {count}"
  | partLength part expected actual =>
    s!"table part `{part.name}` has length {actual}, expected {expected}"

end ShiftReduce
