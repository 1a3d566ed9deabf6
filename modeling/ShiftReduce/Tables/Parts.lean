import ShiftReduce.Tables.TableError

/-!
# The arrays of a packed table

The action and goto rows of all states share one pair of arrays. The row of a
state has an offset, the entry for a symbol lies at the offset plus the symbol,
and the slot belongs to the row only if its owner is that symbol. `Parts` holds
the arrays; `Parts.fault?` is the first reason, if there is one, why they do
not make a table:

* the arrays agree in length;
* states, rules and terminals are few enough for their codes;
* the error symbol and all left-hand sides are nonterminals;
* every code names a state and a rule that exist.

Offsets and slots are numbers without bounds, where a table in memory has words
of 32 bits for them. Arrays are taken to have fewer than `2^31` slots. A slot
that such a word cannot hold is then past the end, and finds no entry in either
reading.
-/

namespace ShiftReduce

namespace Tables

/-- The largest number of states whose ids are positive codes, with the start
state besides. -/
def maxStates : Nat := 32768

/-- The largest number of rules that leaves a code for accepting. -/
def maxRules : Nat := 32767

/-- The offset of a state that has no row. No symbol reaches a slot from it. -/
def unusedOffset : Int := -2147483648

/-- The owner of a slot that belongs to no row. -/
def freeSlot : SymbolId := 65535

/-- The arrays and counts of a packed table. -/
structure Parts where
  /-- The codes of all rows, by slot. -/
  codes : Array Int16
  /-- The symbol that owns each slot. -/
  owners : Array SymbolId
  /-- Where the action row of each state starts. -/
  actionOffsets : Array Int
  /-- Where the goto row of each state starts. -/
  gotoOffsets : Array Int
  /-- The code of each state for symbols without an entry, if the table is
  compressed. -/
  defaults : Array Int16
  rules : Array Rule
  terminalCount : UInt16
  symbolCount : UInt16
  errorSymbol : Option SymbolId
  compressed : Bool
  deriving DecidableEq

namespace Parts

def stateCount (p : Parts) : Nat := p.actionOffsets.size

def ruleCount (p : Parts) : Nat := p.rules.size

def isNonterminal (p : Parts) (x : SymbolId) : Bool :=
  p.terminalCount ≤ x && x < p.symbolCount

/-- Compares the length of an array with what it has to be. -/
def expectLength (part : PartName) (expected actual : Nat) : Option TableError :=
  if expected = actual then none else some (.partLength part expected actual)

/-- The first disagreement between the lengths of the arrays. -/
def lengthFault? (p : Parts) : Option TableError :=
  expectLength .gotoOffsets p.stateCount p.gotoOffsets.size <|>
  expectLength .owners p.codes.size p.owners.size <|>
  if p.compressed then expectLength .defaults p.stateCount p.defaults.size else none

/-- The first count that is out of bounds. -/
def countFault? (p : Parts) : Option TableError :=
  if p.stateCount = 0 ∨ maxStates < p.stateCount then
    some (.overflow .states p.stateCount)
  else if maxRules < p.ruleCount then
    some (.overflow .rules p.ruleCount)
  else if p.terminalCount = 0 ∨ p.symbolCount < p.terminalCount then
    some (.overflow .terminals p.terminalCount.toNat)
  else none

/-- An error symbol that is not a nonterminal. -/
def errorSymbolFault? (p : Parts) : Option TableError :=
  match p.errorSymbol with
  | some x => if p.isNonterminal x then none else some (.invalidErrorSymbol x)
  | none => none

/-- The first rule that does not produce a nonterminal. -/
def lhsFault? (p : Parts) : Option TableError :=
  p.rules.toList.zipIdx.findSome? fun (rule, index) =>
    if p.isNonterminal rule.lhs then none
    else some (.invalidLhs (UInt16.ofNat index) rule.lhs)

/-- What is wrong with the action that a code stands for. -/
def codeFault? (p : Parts) (code : Int16) : Option TableError :=
  match Action.decode code p.ruleCount with
  | .shift state => if p.stateCount ≤ state.toNat then some (.unknownState state) else none
  | .reduce rule => if p.ruleCount ≤ rule.toNat then some (.unknownRule rule) else none
  | .accept => none
  | .error => none

/-- The codes that a lookup can meet: those of the owned slots, and the
defaults. -/
def liveCodes (p : Parts) : List Int16 :=
  (p.owners.toList.zip p.codes.toList).filterMap
    (fun (owner, code) => if owner = freeSlot then none else some code)
  ++ p.defaults.toList

/-- The first reason why the arrays do not make a table. -/
def fault? (p : Parts) : Option TableError :=
  p.lengthFault? <|>
  p.countFault? <|>
  p.errorSymbolFault? <|>
  p.lhsFault? <|>
  p.liveCodes.findSome? p.codeFault?

end Parts

end Tables

end ShiftReduce
