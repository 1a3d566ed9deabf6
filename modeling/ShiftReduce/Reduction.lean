import ShiftReduce.Breach
import ShiftReduce.SparseArray

/-!
# Reduction actions

When the parser reduces by a rule, an action turns the matched right-hand side
into the value of the left-hand side. `Args` is that right-hand side, and
`Actions` is what a parser needs: a function of the rule and the arguments that
may also read and change a memory of its own.

`RuleActions` is a table with an action for some of the rules; the others
produce no value.
-/

namespace ShiftReduce

/-- The symbols matched by the right-hand side of a rule. -/
structure Args (V : Type) where
  symbols : Array (Symbol V)
  /-- The place on the stack of the entry below the first of them. -/
  offset : Nat
  deriving DecidableEq, Repr

namespace Args

variable {V : Type}

def length (a : Args V) : Nat := a.symbols.size

def isEmpty (a : Args V) : Bool := a.symbols.isEmpty

/-- The argument at an index, which has to exist. -/
def symbol (a : Args V) (index : Nat) : Checked (Symbol V) :=
  match a.symbols[index]? with
  | some s => .ok s
  | none => .error .indexOutOfBounds

/-- The value of the argument at an index, if both exist. -/
def value? (a : Args V) (index : Nat) : Option V :=
  a.symbols[index]?.bind Symbol.value

/-- Moves the value of the argument at an index out, if both exist. -/
def take (a : Args V) (index : Nat) : Option V × Args V :=
  (a.value? index, { a with symbols := a.symbols.modify index ({ · with value := none }) })

def start? (a : Args V) : Option Position := a.symbols[0]?.map Symbol.start

def stop? (a : Args V) : Option Position := a.symbols.back?.map Symbol.stop

def inspect [Inspect V] (a : Args V) : String :=
  Text.record "RhsArgs"
    [("symbols", Text.list (a.symbols.toList.map Symbol.inspect)),
     ("offset", toString a.offset)]

end Args

/-- One action: it returns the produced value, if there is one, and its memory. -/
abbrev Actions.Body (σ V : Type) := Args V → σ → Checked (Option V × σ)

/-- The actions of a parser. -/
structure Actions (σ V : Type) where
  reduce : RuleId → Actions.Body σ V

namespace Actions

variable {σ V : Type}

/-- Actions that produce no values. -/
def nothing : Actions σ V := ⟨fun _ _ memory => .ok (none, memory)⟩

/-- Actions that pass the value of the first argument on. -/
def passThrough : Actions σ V := ⟨fun _ args memory => .ok (args.value? 0, memory)⟩

/-- Actions without a memory. -/
def ofFunction (f : RuleId → Args V → Checked (Option V)) : Actions σ V :=
  ⟨fun rule args memory => do return (← f rule args, memory)⟩

end Actions

/-- What one reduction was given. -/
structure Call where
  rule : RuleId
  offset : Nat
  ids : List SymbolId
  start : Option Position
  stop : Option Position
  deriving DecidableEq, Repr

/-- Actions that note every call before they run it. -/
def Actions.logged {σ V : Type} (actions : Actions σ V) : Actions (σ × Array Call) V :=
  ⟨fun rule args (memory, calls) => do
    let call : Call :=
      { rule
        offset := args.offset
        ids := args.symbols.toList.map Symbol.id
        start := args.start?
        stop := args.stop? }
    let (value, memory) ← actions.reduce rule args memory
    return (value, memory, calls.push call)⟩

/-- A table of actions, by rule. -/
structure RuleActions (σ V : Type) where
  bodies : SparseArray (Actions.Body σ V)

namespace RuleActions

variable {σ V : Type}

def empty : RuleActions σ V := ⟨#[]⟩

def set (t : RuleActions σ V) (rule : RuleId) (body : Actions.Body σ V) : RuleActions σ V :=
  ⟨t.bodies.set rule.toNat body⟩

def length (t : RuleActions σ V) : Nat := t.bodies.size

/-- The rules with an action, ascending. -/
def rules (t : RuleActions σ V) : List Nat :=
  (List.range t.bodies.size).filter fun rule => (t.bodies.get? rule).isSome

def isEmpty (t : RuleActions σ V) : Bool := t.rules.isEmpty

/-- The actions of the table. Rules without one produce no value. -/
def actions (t : RuleActions σ V) : Actions σ V :=
  ⟨fun rule args memory =>
    match t.bodies.get? rule.toNat with
    | some body => body args memory
    | none => .ok (none, memory)⟩

def inspect (t : RuleActions σ V) : String :=
  Text.record "RuleActions" [("rules", Text.list (t.rules.map toString))]

end RuleActions

end ShiftReduce
