import ShiftReduce.Notice

/-!
# Transcripts

A transcript writes notices line by line. The paper it is written on may hold a
limited number of lines only. Once these are complete every further write
fails, the first failure is kept, and nothing is written after it.
-/

namespace ShiftReduce

/-- What has been written, and the failure that ended the writing. -/
structure Transcript where
  /-- The number of lines that the paper holds; no number for any number. -/
  limit : Option Nat
  text : String
  /-- The number of complete lines in the text. -/
  lines : Nat
  failure : Option String
  deriving DecidableEq, Repr

namespace Transcript

/-- Blank paper for a number of lines. -/
def blank (limit : Option Nat) : Transcript := ⟨limit, "", 0, none⟩

/-- Whether all lines of the paper are complete. -/
def isExhausted (t : Transcript) : Bool := t.limit.any (· ≤ t.lines)

def write (t : Transcript) (piece : String) : Transcript :=
  if t.failure.isSome then t
  else if t.isExhausted then { t with failure := some "out of paper" }
  else { t with text := t.text ++ piece, lines := t.lines + piece.toList.count '\n' }

/-- Writes a line. The end of the line is a piece of its own. -/
def report (t : Transcript) (line : String) : Transcript := (t.write line).write "\n"

variable {V : Type} [Inspect V]

/-- Writes the line of a notice, if it has one. -/
def record (t : Transcript) (n : Notice V) : Transcript :=
  match n.line? with
  | some line => t.report line
  | none => t

def recordAll (t : Transcript) (ns : List (Notice V)) : Transcript := ns.foldl record t

end Transcript

end ShiftReduce
