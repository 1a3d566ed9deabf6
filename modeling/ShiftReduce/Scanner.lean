import ShiftReduce.Symbol

/-!
# Scanners

A scanner delivers terminals one at a time, and faults between them. Here the
items are known beforehand; when they run out, the scanner delivers the end of
input at the end of the last token, as often as it is asked.

A lexical fault is reported and skipped. Any other fault ends the parse. So
`Scanner.scan` returns the lexical faults that stood before the next token, and
then either the token or the fault that ends the parse.
-/

namespace ShiftReduce

/-- Input that the scanner could not make a token of. -/
structure LexicalError where
  position : Position
  message : String
  deriving DecidableEq, Repr

/-- Written `line:column: message`. -/
def LexicalError.render (e : LexicalError) : String :=
  s!"{e.position.render}: {e.message}"

/-- A fault of a scanner. -/
inductive ScanError where
  /-- Reported, and scanning goes on. -/
  | lexical (e : LexicalError)
  /-- The source could not be read. -/
  | io (message : String)
  | other (message : String)
  deriving DecidableEq, Repr

def ScanError.message : ScanError → String
  | lexical e => s!"Lexical error at {e.render}"
  | io message => s!"I/O error while scanning: {message}"
  | other message => message

/-- The items still to be delivered, and the end of the last token. -/
structure Scanner (V : Type) where
  items : List (Except ScanError (Symbol V))
  stop : Position

/-- What a scanner answers when it is asked for a token. -/
structure Scan (V : Type) where
  /-- The lexical faults before the answer. -/
  lexical : List LexicalError
  result : Except ScanError (Symbol V)
  scanner : Scanner V

namespace Scanner

variable {V : Type}

def ofItems (items : List (Except ScanError (Symbol V))) : Scanner V := ⟨items, .zero⟩

def ofTokens (tokens : List (Symbol V)) : Scanner V := ofItems (tokens.map .ok)

/-- The number of items still to be delivered. -/
def remaining (s : Scanner V) : Nat := s.items.length

def next (s : Scanner V) : Except ScanError (Symbol V) × Scanner V :=
  match s.items with
  | [] => (.ok (.endOfInput s.stop), s)
  | .ok token :: rest => (.ok token, ⟨rest, token.stop⟩)
  | .error e :: rest => (.error e, ⟨rest, s.stop⟩)

/-- Asks for the next token among items, when the last token ended at `stop`. -/
def scanItems (stop : Position) : List (Except ScanError (Symbol V)) → Scan V
  | [] => ⟨[], .ok (.endOfInput stop), ⟨[], stop⟩⟩
  | .ok token :: rest => ⟨[], .ok token, ⟨rest, token.stop⟩⟩
  | .error (.lexical e) :: rest =>
    let scan := scanItems stop rest
    { scan with lexical := e :: scan.lexical }
  | .error e :: rest => ⟨[], .error e, ⟨rest, stop⟩⟩

/-- Asks for the next token. -/
def scan (s : Scanner V) : Scan V := scanItems s.stop s.items

end Scanner

end ShiftReduce
