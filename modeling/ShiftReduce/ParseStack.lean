import ShiftReduce.Stack

/-!
# The automaton stack

Each entry is a state together with the symbol that was matched to reach it.
The bottom entry is the start state with an empty symbol at the start of the
source, so that there is always a previous symbol whose end is known.
-/

namespace ShiftReduce

/-- A state and the symbol that led to it. -/
structure Entry (V : Type) where
  state : StateId
  symbol : Symbol V
  deriving DecidableEq, Repr

/-- The stack of a running automaton, bottom entry first. -/
structure ParseStack (V : Type) where
  entries : Stack (Entry V)
  deriving Repr

namespace ParseStack

variable {V : Type}

/-- A stack that holds a start state only. -/
def ofState (start : StateId) : ParseStack V :=
  ⟨Stack.empty.push ⟨start, .empty eof .zero .zero⟩⟩

/-- The number of entries, the bottom one included. -/
def depth (s : ParseStack V) : Nat := s.entries.size

def states (s : ParseStack V) : Array StateId := s.entries.items.map Entry.state

def symbols (s : ParseStack V) : Array (Symbol V) := s.entries.items.map Entry.symbol

def push (s : ParseStack V) (state : StateId) (symbol : Symbol V) : ParseStack V :=
  ⟨s.entries.push ⟨state, symbol⟩⟩

/-- Takes the top entry off. -/
def pop? (s : ParseStack V) : Option (Entry V × ParseStack V) :=
  s.entries.pop?.map fun (entry, rest) => (entry, ⟨rest⟩)

def top (s : ParseStack V) : Checked (Entry V) :=
  match s.entries.top? with
  | some entry => .ok entry
  | none => .error .emptyStack

def topState (s : ParseStack V) : Checked StateId := Entry.state <$> s.top

def topSymbol (s : ParseStack V) : Checked (Symbol V) := Entry.symbol <$> s.top

def modifyTopSymbol (s : ParseStack V) (f : Symbol V → Symbol V) : Checked (ParseStack V) := do
  let entry ← s.top
  return ⟨s.entries.setTop { entry with symbol := f entry.symbol }⟩

/-- The symbol at an index, counted from the bottom. -/
def symbol (s : ParseStack V) (index : Nat) : Checked (Symbol V) :=
  match s.entries.get? index with
  | some entry => .ok entry.symbol
  | none => .error .indexOutOfBounds

/-- The symbols from an index up to the top. -/
def symbolsFrom (s : ParseStack V) (start : Nat) : Checked (Array (Symbol V)) :=
  (·.map Entry.symbol) <$> s.entries.sliceFrom start

/-- Drops everything above the lowest `depth` entries. -/
def truncate (s : ParseStack V) (depth : Nat) : ParseStack V :=
  ⟨s.entries.truncate depth⟩

/-! ## The two columns -/

theorem size_states (s : ParseStack V) : s.states.size = s.depth := by
  rw [states, Array.size_map, depth, Stack.size]

theorem size_symbols (s : ParseStack V) : s.symbols.size = s.depth := by
  rw [symbols, Array.size_map, depth, Stack.size]

theorem depth_push (s : ParseStack V) (state : StateId) (symbol : Symbol V) :
    (s.push state symbol).depth = s.depth + 1 :=
  s.entries.size_push _

theorem symbols_push (s : ParseStack V) (state : StateId) (symbol : Symbol V) :
    (s.push state symbol).symbols = s.symbols.push symbol := by
  rw [symbols, push, Stack.items_push, Array.map_push, symbols]

theorem top_push (s : ParseStack V) (state : StateId) (symbol : Symbol V) :
    (s.push state symbol).top = .ok ⟨state, symbol⟩ := by
  rw [top, push, Stack.top?_push]

end ParseStack

end ShiftReduce
