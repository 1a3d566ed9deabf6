import ShiftReduce.Action

/-!
# Broken contracts

Some operations are only meant for arguments that satisfy a contract: an index
in range, a buffer with room, a stack that is not empty. A call outside the
contract answers with a `Breach`, which names the contract that was broken,
and the wording of all of them is in `Breach.message`.

All contracts are checked, as they are in a debug build: sums and products of
words are checked for overflow, and the mode of a stream is checked at every
read. A build without these checks goes on where a breach is answered here.

Of memory only the size of a single allocation is limited. Memory never runs
out, and neither does the stack of the machine.

A computation that may run forever takes fuel. `Interrupt` is how such a
computation can end without a result.
-/

namespace ShiftReduce

/-- A contract that a caller has broken. -/
inductive Breach where
  /-- A ring buffer was asked for with an unsuitable capacity. -/
  | ringCapacity (capacity : Nat)
  /-- An item was pushed to a full ring buffer. -/
  | ringFull
  /-- An item was taken from an empty ring buffer. -/
  | ringEmpty
  /-- A slot between the cursors of a ring buffer is free. -/
  | ringSlot
  /-- An index is not below the number of buffered items. -/
  | ringIndex (index count : Nat)
  /-- A token was inserted neither first nor second. -/
  | insertOffset (offset : Nat)
  /-- A token was removed that is neither first nor second. -/
  | removeOffset (offset : Nat)
  /-- A stream was rewound that is not buffering. -/
  | rewindOutsideBuffering
  /-- A buffered read of a stream that is not buffering. -/
  | bufferedReadOutsideBuffering
  /-- A direct read of a stream that is buffering. -/
  | directReadWhileBuffering
  /-- The automaton stack has no entry. -/
  | emptyStack
  /-- An index is past the end of a table, a stack or an argument list. -/
  | indexOutOfBounds
  /-- A slice starts past the end of a stack. -/
  | sliceOutOfRange
  /-- A sum does not fit its word. -/
  | addOverflow
  /-- A product does not fit its word. -/
  | multiplyOverflow
  /-- An allocation takes more bytes than a signed word can count. -/
  | capacityOverflow
  /-- A rule replaces more symbols than were matched. -/
  | ruleTooLong (rule : RuleId) (length depth : Nat)
  /-- A produced symbol is neither shifted nor accepted. -/
  | strayNonterminal (lhs : SymbolId) (state : StateId) (found : Action)
  deriving DecidableEq, Repr

def Breach.message : Breach → String
  | ringCapacity capacity =>
    s!"ring buffer capacity must be a power of two of at least 2, got {capacity}"
  | ringFull => "token buffer overflow"
  | ringEmpty => "token buffer underflow"
  | ringSlot => "occupied slot between head and tail"
  | ringIndex index count => s!"index {index} out of range for {count} buffered items"
  | insertOffset offset => s!"tokens can only be inserted at offset 0 or 1, not {offset}"
  | removeOffset offset => s!"tokens can only be removed at offset 0 or 1, not {offset}"
  | rewindOutsideBuffering => "rewind outside buffering mode"
  | bufferedReadOutsideBuffering => "buffered read in pass-through mode"
  | directReadWhileBuffering => "pass-through read while buffering"
  | emptyStack => "automaton stack is empty"
  | indexOutOfBounds => "index out of bounds"
  | sliceOutOfRange => "slice out of range"
  | addOverflow => "attempt to add with overflow"
  | multiplyOverflow => "attempt to multiply with overflow"
  | capacityOverflow => "capacity overflow"
  | ruleTooLong rule length depth =>
    s!"rule {rule.toNat} pops {length} symbols from a stack of depth {depth}"
  | strayNonterminal lhs state found =>
    s!"cannot shift nonterminal {lhs.toNat} in state {state.toNat}: {found.inspect}"

/-- How a computation with fuel can end without a result. -/
inductive Interrupt where
  /-- A contract was broken. -/
  | breach (cause : Breach)
  /-- The fuel was used up. -/
  | outOfFuel
  deriving DecidableEq, Repr

/-- A result under a contract. -/
abbrev Checked := Except Breach

/-- A result under a contract, of a computation with fuel. -/
abbrev Fueled := Except Interrupt

/-- A result under a contract, taken as one of a computation with fuel. -/
def Checked.toFueled {α : Type} : Checked α → Fueled α
  | .ok a => .ok a
  | .error b => .error (.breach b)

instance : MonadLift Checked Fueled := ⟨Checked.toFueled⟩

@[simp] theorem liftM_ok {α : Type} (a : α) : (liftM (.ok a : Checked α) : Fueled α) = .ok a := rfl

@[simp] theorem liftM_error {α : Type} (b : Breach) :
    (liftM (.error b : Checked α) : Fueled α) = .error (.breach b) := rfl

end ShiftReduce
