import ShiftReduce.SparseArray
import ShiftReduce.Tables.Parts

/-!
# First-fit packing

Rows of slots are laid over each other in one array. A row is moved as a whole:
its offset is the least one, from the one that brings its first slot to the
start of the array, at which all its places are free and which no other row
has. Different offsets keep rows apart: a slot and its owner determine the
offset of the row that it belongs to. Offsets are numbers without bounds, as in
`Tables.Parts`: rows that fill `2^31` places or more are not meant.
-/

namespace ShiftReduce.Tables

/-- A code and the symbol it is for. -/
structure Slot where
  owner : SymbolId
  code : Int16
  deriving DecidableEq, Repr

/-- Rows laid over each other. -/
structure Packing where
  /-- The places of the array, some of them still free. -/
  places : SparseArray Slot
  /-- The offsets given to rows, the latest first. -/
  offsets : List Int
  deriving Repr

namespace Packing

def empty : Packing := ⟨#[], []⟩

/-- Where a slot comes to lie in a row that starts at an offset. -/
def index (offset : Int) (s : Slot) : Nat := (offset + s.owner.toNat).toNat

/-- Whether a place is free. Places past the end are. -/
def isFree (p : Packing) (index : Nat) : Bool := (p.places.get? index).isNone

/-- Whether all places of a row are free at an offset. -/
def fits (p : Packing) (row : List Slot) (offset : Int) : Bool :=
  row.all fun s => p.isFree (index offset s)

/-- Whether a row can be placed at an offset. -/
def admits (p : Packing) (row : List Slot) (offset : Int) : Bool :=
  p.fits row offset && !p.offsets.contains offset

/-- The first offset from `offset` on at which a row can be placed, among the
next `count`, or else the one behind them. -/
def firstFit (p : Packing) (row : List Slot) : Nat → Int → Int
  | 0, offset => offset
  | count + 1, offset =>
    if p.admits row offset then offset else p.firstFit row count (offset + 1)

/-- The least offset that brings no slot of an ascending row before the start. -/
def leastOffset (row : List Slot) : Int :=
  match row with
  | s :: _ => -(s.owner.toNat : Int)
  | [] => 0

/-- The offset of the next row. Behind the end of the array every place is free,
and one of as many offsets as there are rows, and one more, belongs to no row;
so the search is bounded. -/
def offsetFor (p : Packing) (row : List Slot) : Int :=
  let least := leastOffset row
  p.firstFit row (p.places.size + p.offsets.length + least.natAbs) least

/-- Places a row at an offset. -/
def placeAt (p : Packing) (row : List Slot) (offset : Int) : Packing :=
  ⟨row.foldl (fun places s => places.set (index offset s) s) p.places, offset :: p.offsets⟩

/-- Places a row where it first fits. -/
def place (p : Packing) (row : List Slot) : Packing := p.placeAt row (p.offsetFor row)

/-- Places rows one after another. -/
def ofRows (rows : List (List Slot)) : Packing := rows.foldl place empty

/-- The code of a place; zero if it is free. -/
def codeOf : Option Slot → Int16
  | some s => s.code
  | none => 0

def ownerOf : Option Slot → SymbolId
  | some s => s.owner
  | none => freeSlot

def codes (p : Packing) : Array Int16 := p.places.map codeOf

def owners (p : Packing) : Array SymbolId := p.places.map ownerOf

end Packing

end ShiftReduce.Tables
