import ShiftReduce.RingBuffer.Basic
import ShiftReduce.Scanner

/-!
# Token streams

A stream reads a scanner through a buffer, in one of two modes.

* Passing through: `TokenStream.next` delivers buffered tokens first and then
  reads the scanner.
* Buffering: the head of the buffer is the mark. `TokenStream.nextBuffered`
  delivers the token at the cursor, buffering what it has to read from the
  scanner, and `TokenStream.rewind` brings the cursor back to the mark, so the
  same tokens come again. `TokenStream.insert` and `TokenStream.remove` edit
  the first two tokens.

Leaving the buffering mode brings the cursor back too, so everything buffered
is delivered again. The stream is full when `window` tokens have been read
since the mark. The buffer has room for these, for the token that recovery puts
back, and for one more that it inserts.

A read in the wrong mode and a window that is too large for its buffer are
broken contracts: the first is what a debug build asserts, and the second is an
overflow that it checks, or an allocation that no build can make.
-/

namespace ShiftReduce

/-- A scanner, and tokens of it that are held back. -/
structure TokenStream (V : Type) where
  scanner : Scanner V
  buffer : RingBuffer (Symbol V)
  /-- The number of tokens delivered since the mark. -/
  read : Nat
  buffering : Bool
  /-- The number of tokens that fill the stream. -/
  window : Nat

/-- The answer of a stream to a request for a token. -/
structure Delivery (V : Type) where
  /-- The lexical faults met on the way. -/
  lexical : List LexicalError
  result : Except ScanError (Symbol V)
  stream : TokenStream V

namespace TokenStream

variable {V : Type}

/-- The window of a stream that is made without asking for one. -/
def defaultWindow : Nat := 3

/-- The capacity of the buffer for a window, which has to fit a 64-bit word. -/
def bufferCapacity (window : Nat) : Checked Nat :=
  let capacity := PowerOfTwo.roundUp (window + 4)
  if capacity < UInt64.size then .ok capacity else .error .addOverflow

/-- The bytes of a slot for a token that may carry a `Value`. -/
def valueSlotBytes : Nat := 40

/-- A stream that passes through. A window of zero counts as one. The bytes of a
slot of the buffer depend on the type of the values. -/
def ofScanner (scanner : Scanner V) (window : Nat) (slotBytes : Nat := valueSlotBytes) :
    Checked (TokenStream V) := do
  let window := max window 1
  let buffer ← RingBuffer.ofCapacity (← bufferCapacity window) slotBytes
  return { scanner, buffer, read := 0, buffering := false, window }

/-- Buffers a token behind all that are buffered. -/
def withLeading (s : TokenStream V) (marker : Symbol V) : Checked (TokenStream V) := do
  return { s with buffer := ← s.buffer.pushBack marker }

def buffered (s : TokenStream V) : List (Symbol V) := s.buffer.toList

/-- Changes the mode and brings the cursor back to the mark. -/
def setBuffering (s : TokenStream V) (buffering : Bool) : TokenStream V :=
  { s with buffering, read := 0 }

def rewind (s : TokenStream V) : Checked (TokenStream V) :=
  if s.buffering then .ok { s with read := 0 } else .error .rewindOutsideBuffering

/-- Whether a window of tokens has been read since the mark. -/
def isFull (s : TokenStream V) : Bool := s.buffering && s.window ≤ s.read

/-- Puts an item in front of the first one, or of the second. -/
def insertNear {α : Type} (buffer : RingBuffer α) (x : α) : Nat → Checked (RingBuffer α)
  | 0 => buffer.pushFront x
  | 1 => do
    let (first, rest) ← buffer.popFront
    let rest ← rest.pushFront x
    rest.pushFront first
  | offset => .error (.insertOffset offset)

/-- Takes the first item out, or the second. -/
def removeNear {α : Type} (buffer : RingBuffer α) : Nat → Checked (α × RingBuffer α)
  | 0 => buffer.popFront
  | 1 => do
    let (first, rest) ← buffer.popFront
    let (second, rest) ← rest.popFront
    let rest ← rest.pushFront first
    return (second, rest)
  | offset => .error (.removeOffset offset)

/-- Inserts a token as the first or the second. The cursor stays at the token
that it was about to deliver, unless the new one is inserted right there. -/
def insert (s : TokenStream V) (offset : Nat) (token : Symbol V) : Checked (TokenStream V) := do
  let buffer ← insertNear s.buffer token offset
  return { s with buffer, read := if offset < s.read then s.read + 1 else s.read }

/-- Takes the first or the second token out. -/
def remove (s : TokenStream V) (offset : Nat) : Checked (Symbol V × TokenStream V) := do
  let (token, buffer) ← removeNear s.buffer offset
  return (token, { s with buffer, read := if offset < s.read then s.read - 1 else s.read })

/-- The buffered token at an offset from the mark. -/
def peek? (s : TokenStream V) (offset : Nat) : Option (Symbol V) := s.buffer.get? offset

/-- Changes the buffered token at an offset from the mark, if there is one. -/
def modify (s : TokenStream V) (offset : Nat) (f : Symbol V → Symbol V) : TokenStream V :=
  match s.peek? offset with
  | some token => { s with buffer := s.buffer.set offset (f token) }
  | none => s

/-- Delivers the next token in passing. -/
def next (s : TokenStream V) : Checked (Delivery V) :=
  if s.buffering then .error .directReadWhileBuffering
  else if s.buffer.isEmpty then
    let scan := s.scanner.scan
    .ok ⟨scan.lexical, scan.result, { s with scanner := scan.scanner }⟩
  else do
    let (token, buffer) ← s.buffer.popFront
    return ⟨[], .ok token, { s with buffer }⟩

/-- Delivers the token at the cursor and moves the cursor on. A fault leaves the
cursor where it is. -/
def nextBuffered (s : TokenStream V) : Checked (Delivery V) :=
  if !s.buffering then .error .bufferedReadOutsideBuffering
  else if s.read = s.buffer.length then
    let scan := s.scanner.scan
    let s := { s with scanner := scan.scanner }
    match scan.result with
    | .ok token => do
      let buffer ← s.buffer.pushBack token
      return ⟨scan.lexical, .ok token, { s with buffer, read := s.read + 1 }⟩
    | .error fault => .ok ⟨scan.lexical, .error fault, s⟩
  else do
    let token ← s.buffer.get s.read
    return ⟨[], .ok token, { s with read := s.read + 1 }⟩

def inspect [Inspect V] (s : TokenStream V) : String :=
  Text.openRecord "TokenStream"
    [("buffer", Text.list (s.buffered.map Symbol.inspect)),
     ("read", toString s.read),
     ("buffering", Text.bool s.buffering),
     ("window", toString s.window)]

end TokenStream

end ShiftReduce
