/-!
# Positions and spans

A source position is one word: the line in the high 20 bits and the column in
the low 12, both counted from zero. Coordinates that do not fit are clamped to
the largest that do, so packing is total.

* `Position.ofLineColumn` packs, `Position.line` and `Position.column` unpack;
* positions are ordered by their word, which is reading order;
* the text of a position counts from one, `line:column`, and a span is written
  `start-stop`.
-/

namespace ShiftReduce

/-- A line and a column packed into one word. -/
structure Position where
  /-- `line * 4096 + column`. -/
  packed : UInt32
  deriving DecidableEq, Repr, Inhabited

namespace Position

/-- The number of columns a line can address. -/
def columns : UInt32 := 4096

def maxColumn : UInt32 := 4095

def maxLine : UInt32 := 1048575

/-- The first column of the first line. -/
def zero : Position := ⟨0⟩

/-- Packs coordinates counted from zero, clamping each to its largest value. -/
def ofLineColumn (line column : UInt32) : Position :=
  ⟨min line maxLine * columns + min column maxColumn⟩

/-- The line, counted from zero. -/
def line (p : Position) : UInt32 := p.packed / columns

/-- The column, counted from zero. -/
def column (p : Position) : UInt32 := p.packed % columns

instance : LE Position := ⟨fun a b => a.packed ≤ b.packed⟩

instance : LT Position := ⟨fun a b => a.packed < b.packed⟩

instance (a b : Position) : Decidable (a ≤ b) :=
  inferInstanceAs (Decidable (a.packed ≤ b.packed))

instance (a b : Position) : Decidable (a < b) :=
  inferInstanceAs (Decidable (a.packed < b.packed))

instance : Ord Position := ⟨fun a b => compare a.packed b.packed⟩

/-- Written `line:column`, counted from one. -/
def render (p : Position) : String :=
  s!"{p.line.toNat + 1}:{p.column.toNat + 1}"

/-- The inspection text, which shows the packed word. -/
def inspect (p : Position) : String := s!"Position({p.packed.toNat})"

end Position

/-- Where a symbol starts and where it stops. -/
structure Span where
  start : Position
  stop : Position
  deriving DecidableEq, Repr

/-- Written `start-stop`. -/
def Span.render (s : Span) : String := s!"{s.start.render}-{s.stop.render}"

end ShiftReduce
