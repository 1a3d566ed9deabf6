import ShiftReduce.Text.Quoted

/-!
# Semantic values

The parser is generic in the values that symbols carry. All it asks of them is
`Inspect`, the text under which a value appears in diagnostics. `Value` is the
stock type of values: 64-bit integers and texts.
-/

namespace ShiftReduce

/-- Values that diagnostics can show. -/
class Inspect (V : Type) where
  /-- The text of a value in a diagnostic. -/
  inspect : V → String

/-- An integer or a text. -/
inductive Value where
  | int (n : Int64)
  | text (s : String)
  deriving DecidableEq, Repr

namespace Value

/-- Integers in decimal, texts as they are. -/
def plain : Value → String
  | int n => toString n.toInt
  | text s => s

/-- Integers in decimal, texts in quotes. -/
def inspect : Value → String
  | int n => toString n.toInt
  | text s => Text.quote s

end Value

instance : Inspect Value := ⟨Value.inspect⟩

end ShiftReduce
