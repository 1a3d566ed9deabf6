import ShiftReduce.Tables.Packed
import ShiftReduce.Tables.Packing
import ShiftReduce.Tables.Row

/-!
# Building tables

A table is built from declarations of its rules and entries. `Builder.declare`
takes them one by one and never fails: the first fault is remembered, and
`Builder.build` reports it. Building then

* checks what only the whole can show: too many rules or states, and entries
  that reduce by rules without a declaration;
* compresses the action rows, if the table is declared to be compressed;
* packs the rows, long ones first, and of rows of one length the action rows
  before the goto rows and lower states before higher.
-/

namespace ShiftReduce.Tables

/-- One declaration about a table. -/
inductive Declaration where
  /-- The next rule: the symbol it produces and the length of its right side. -/
  | rule (lhs : SymbolId) (length : UInt16)
  | shift (state : StateId) (terminal : SymbolId) (target : StateId)
  | reduce (state : StateId) (terminal : SymbolId) (rule : RuleId)
  /-- Accept on a symbol of either kind. -/
  | accept (state : StateId) (symbol : SymbolId)
  | goto (state : StateId) (nonterminal : SymbolId) (target : StateId)
  /-- The nonterminal that recovery puts in the place of a phrase. -/
  | errorSymbol (symbol : SymbolId)
  | compressed (on : Bool)
  deriving DecidableEq, Repr

/-- What has been declared so far. -/
structure Builder where
  terminalCount : UInt16
  symbolCount : UInt16
  rules : Array Rule
  /-- The entries for terminals. -/
  actions : List Cell
  /-- The entries for nonterminals. -/
  gotos : List Cell
  /-- One past the largest state named. -/
  stateCount : Nat
  errorSymbol : Option SymbolId
  compressed : Bool
  /-- The first declaration at fault. -/
  fault : Option TableError
  deriving Repr

namespace Builder

/-- Nothing declared but the numbers of terminals and of symbols. -/
def new (terminalCount symbolCount : UInt16) : Builder :=
  { terminalCount
    symbolCount
    rules := #[]
    actions := []
    gotos := []
    stateCount := 1
    errorSymbol := none
    compressed := false
    fault := none }

/-- Remembers a fault, unless there has been one before. -/
def fail (b : Builder) (fault : TableError) : Builder :=
  { b with fault := b.fault <|> some fault }

/-- Whether a symbol is of a kind. -/
def isOfKind (b : Builder) : SymbolKind → SymbolId → Bool
  | .terminal, x => x < b.terminalCount
  | .nonterminal, x => b.terminalCount ≤ x && x < b.symbolCount

/-- The entries for symbols of a kind. -/
def cells (b : Builder) : SymbolKind → List Cell
  | .terminal => b.actions
  | .nonterminal => b.gotos

/-- One past the states that a cell names. -/
def statesNamed (c : Cell) : Nat :=
  match c.action with
  | .shift target => max (c.state.toNat + 1) (target.toNat + 1)
  | _ => c.state.toNat + 1

/-- Puts a cell among the entries for symbols of a kind. -/
def insert (b : Builder) (kind : SymbolKind) (c : Cell) : Builder :=
  match kind with
  | .terminal => { b with actions := Cell.insert c b.actions }
  | .nonterminal => { b with gotos := Cell.insert c b.gotos }

/-- Records an entry for a symbol of a kind. An entry may be recorded twice, but
not with two actions. -/
def record (b : Builder) (kind : SymbolKind) (c : Cell) : Builder :=
  if b.isOfKind kind c.symbol then
    let b := { b with stateCount := max b.stateCount (statesNamed c) }
    match Cell.find? (b.cells kind) c.state c.symbol with
    | some action =>
      if action = c.action then b else b.fail (.conflict c.state c.symbol)
    | none => b.insert kind c
  else b.fail (.wrongSymbolKind c.state c.symbol kind)

/-- Records that a state is entered through a symbol of a kind. -/
def enter (b : Builder) (kind : SymbolKind) (state : StateId) (symbol : SymbolId)
    (target : StateId) : Builder :=
  if target = startState then b.fail (.shiftToStartState state)
  else b.record kind ⟨state, symbol, .shift target⟩

def declare (b : Builder) : Declaration → Builder
  | .rule lhs length => { b with rules := b.rules.push (.pack lhs length) }
  | .shift state terminal target => b.enter .terminal state terminal target
  | .reduce state terminal rule => b.record .terminal ⟨state, terminal, .reduce rule⟩
  | .accept state symbol =>
    b.record (if symbol < b.terminalCount then .terminal else .nonterminal)
      ⟨state, symbol, .accept⟩
  | .goto state nonterminal target => b.enter .nonterminal state nonterminal target
  | .errorSymbol symbol => { b with errorSymbol := some symbol }
  | .compressed on => { b with compressed := on }

def ofDeclarations (terminalCount symbolCount : UInt16) (ds : List Declaration) : Builder :=
  ds.foldl declare (new terminalCount symbolCount)

/-! ## Packing -/

/-- The rule of an entry that reduces by a rule without a declaration. -/
def undefinedRule? (b : Builder) (c : Cell) : Option RuleId :=
  match c.action with
  | .reduce rule => if b.rules.size ≤ rule.toNat then some rule else none
  | _ => none

/-- The first reason not to pack the entries. -/
def fault? (b : Builder) : Option TableError :=
  b.fault <|>
  (if maxRules < b.rules.size then some (.overflow .rules b.rules.size) else none) <|>
  (if maxStates < b.stateCount then some (.overflow .states b.stateCount) else none) <|>
  (b.actions.findSome? b.undefinedRule?).map .unknownRule

def states (b : Builder) : List StateId := (List.range b.stateCount).map UInt16.ofNat

/-- The action row of a state as declared. -/
def fullActionRow (b : Builder) (s : StateId) : Row := Row.ofCells b.actions s

/-- The action row of a state as it is packed. -/
def actionRow (b : Builder) (s : StateId) : Row :=
  if b.compressed then (b.fullActionRow s).compress else b.fullActionRow s

def gotoRow (b : Builder) (s : StateId) : Row := Row.ofCells b.gotos s

/-- A row of the table: its kind, its state and its entries. -/
structure Placement where
  kind : SymbolKind
  state : StateId
  row : Row

/-- All rows with entries: by kind, then by state. -/
def rows (b : Builder) : List Placement :=
  let actions := b.states.map fun s => Placement.mk .terminal s (b.actionRow s)
  let gotos := b.states.map fun s => Placement.mk .nonterminal s (b.gotoRow s)
  (actions ++ gotos).filter fun p => !p.row.isEmpty

/-- All rows with entries in the order of packing: long rows first. -/
def packingOrder (b : Builder) : List Placement :=
  b.rows.mergeSort fun p q => q.row.length ≤ p.row.length

/-- A row as it is stored. -/
def slots (b : Builder) (row : Row) : List Slot :=
  row.map fun (symbol, action) => ⟨symbol, action.encode b.rules.size⟩

/-- The offsets of the rows of a kind, by state. -/
def offsets (stateCount : Nat) (kind : SymbolKind) (placed : List (Placement × Int)) :
    Array Int :=
  placed.foldl
    (fun offsets (p, offset) =>
      if p.kind = kind then offsets.setIfInBounds p.state.toNat offset else offsets)
    (Array.replicate stateCount unusedOffset)

def defaults (b : Builder) : Array Int16 :=
  if b.compressed then
    (b.states.map fun s => (b.fullActionRow s).defaultAction.encode b.rules.size).toArray
  else #[]

def parts (b : Builder) : Parts :=
  let order := b.packingOrder
  let packing := Packing.ofRows (order.map fun p => b.slots p.row)
  let placed := order.zip packing.offsets.reverse
  { codes := packing.codes
    owners := packing.owners
    actionOffsets := offsets b.stateCount .terminal placed
    gotoOffsets := offsets b.stateCount .nonterminal placed
    defaults := b.defaults
    rules := b.rules
    terminalCount := b.terminalCount
    symbolCount := b.symbolCount
    errorSymbol := b.errorSymbol
    compressed := b.compressed }

/-- The table that has been declared. -/
def build (b : Builder) : Except TableError PackedTables :=
  match b.fault? with
  | some fault => .error fault
  | none => PackedTables.ofParts b.parts

end Builder

end ShiftReduce.Tables
