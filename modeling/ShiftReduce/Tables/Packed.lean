import ShiftReduce.Breach
import ShiftReduce.Tables.Parts

/-!
# Packed tables

`PackedTables` are arrays in which nothing is wrong. All lookups are for a
state and a symbol; a state that the table does not have breaks the contract,
and a symbol without an entry has the error action, or the default of its state
if the table is compressed.
-/

namespace ShiftReduce

open Tables

/-- Arrays in which nothing is wrong. -/
structure PackedTables where
  parts : Parts
  sound : parts.fault? = none

namespace PackedTables

/-- Admits arrays in which nothing is wrong. -/
def ofParts (parts : Parts) : Except TableError PackedTables :=
  match h : parts.fault? with
  | some fault => .error fault
  | none => .ok ⟨parts, h⟩

def stateCount (t : PackedTables) : Nat := t.parts.stateCount

def symbolCount (t : PackedTables) : Nat := t.parts.symbolCount.toNat

/-- The number of terminals. They are the first symbols. -/
def terminalCount (t : PackedTables) : Nat := t.parts.terminalCount.toNat

def ruleCount (t : PackedTables) : Nat := t.parts.ruleCount

/-- The symbol that recovery puts in the place of a phrase. -/
def errorSymbol (t : PackedTables) : Option SymbolId := t.parts.errorSymbol

/-- Whether symbols without an entry have a default action. -/
def compressed (t : PackedTables) : Bool := t.parts.compressed

def acceptCode (t : PackedTables) : Int16 := Action.accept.encode t.ruleCount

/-- The code for a symbol in the row that starts at an offset. A slot before the
start of the arrays or past their end has none. -/
def entry? (t : PackedTables) (offset : Int) (x : SymbolId) : Option Int16 :=
  let slot := offset + x.toNat
  if slot < 0 then none
  else if t.parts.owners[slot.toNat]? = some x then t.parts.codes[slot.toNat]?
  else none

/-- Reads an array that has an item for each state or rule. -/
def item {α : Type} (items : Array α) (index : UInt16) : Checked α :=
  match items[index.toNat]? with
  | some x => .ok x
  | none => .error .indexOutOfBounds

/-- The action code of a terminal in a state. -/
def actionCode (t : PackedTables) (s : StateId) (x : SymbolId) : Checked Int16 := do
  match t.entry? (← item t.parts.actionOffsets s) x with
  | some code => return code
  | none => if t.compressed then item t.parts.defaults s else return 0

/-- The goto code of a nonterminal in a state. -/
def gotoCode (t : PackedTables) (s : StateId) (x : SymbolId) : Checked Int16 := do
  return (t.entry? (← item t.parts.gotoOffsets s) x).getD 0

/-- What to do on a terminal in a state. -/
def action (t : PackedTables) (s : StateId) (x : SymbolId) : Checked Action := do
  return .decode (← t.actionCode s x) t.ruleCount

/-- What to do on a produced nonterminal in a state. -/
def goto (t : PackedTables) (s : StateId) (x : SymbolId) : Checked Action := do
  return .decode (← t.gotoCode s x) t.ruleCount

def rule (t : PackedTables) (r : RuleId) : Checked Rule := item t.parts.rules r

/-- Whether a terminal has an entry of its own in a state, other than the error
action. -/
def hasLookahead (t : PackedTables) (s : StateId) (x : SymbolId) : Checked Bool := do
  match t.entry? (← item t.parts.actionOffsets s) x with
  | some code => return code != 0
  | none => return false

end PackedTables

end ShiftReduce
