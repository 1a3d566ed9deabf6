import ShiftReduce.Symbol

/-!
# Parser actions and table codes

What the automaton does in a state is one of four actions. Tables store an
action as a signed 16-bit code:

* a positive code shifts to the state of that number;
* zero is the error action;
* the complement of the rule count accepts;
* any other negative code reduces by the rule whose complement it is.

`Action.decode` and `Action.encode` go between the two; both need the number
of rules, which fixes the accepting code. A rule is stored as one word, its
left-hand side in the high half and its length in the low half.
-/

namespace ShiftReduce

/-- What the automaton does next. -/
inductive Action where
  /-- Consume the symbol and enter a state. -/
  | shift (state : StateId)
  /-- Replace a right-hand side by the left-hand side of a rule. -/
  | reduce (rule : RuleId)
  /-- End the parse with success. -/
  | accept
  /-- The symbol does not fit here. -/
  | error
  deriving DecidableEq, Repr, Inhabited

namespace Action

/-- Reads a table code. -/
def decode (code : Int16) (ruleCount : Nat) : Action :=
  if 0 < code then .shift code.toUInt16
  else if code = 0 then .error
  else
    let rule := (~~~code).toUInt16
    if rule.toNat = ruleCount then .accept else .reduce rule

/-- Writes a table code. It can be read back if states and rules are below
`2 ^ 15`; larger numbers wrap. -/
def encode (action : Action) (ruleCount : Nat) : Int16 :=
  match action with
  | .shift state => state.toInt16
  | .reduce rule => ~~~rule.toInt16
  | .accept => ~~~(Int16.ofNat ruleCount)
  | .error => 0

def isError : Action → Bool
  | .error => true
  | _ => false

def inspect : Action → String
  | .shift state => s!"Shift({state.toNat})"
  | .reduce rule => s!"Reduce({rule.toNat})"
  | .accept => "Accept"
  | .error => "Error"

end Action

/-- A grammar rule as its word: what it produces and how many symbols it
replaces. -/
structure Rule where
  packed : UInt32
  deriving DecidableEq, Repr

namespace Rule

/-- Packs a left-hand side and the length of a right-hand side. -/
def pack (lhs : SymbolId) (length : UInt16) : Rule :=
  ⟨lhs.toUInt32 * 65536 + length.toUInt32⟩

/-- The symbol that the rule produces. -/
def lhs (r : Rule) : SymbolId := (r.packed / 65536).toUInt16

/-- The number of symbols that the rule replaces. -/
def length (r : Rule) : Nat := (r.packed % 65536).toNat

end Rule

end ShiftReduce
