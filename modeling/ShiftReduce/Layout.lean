import ShiftReduce.Breach

/-!
# Laid-out tokens

Tokens written by hand, without a source text, are laid out on the first line:
each is one column wide, with one blank column before the next.
-/

namespace ShiftReduce.Layout

variable {V : Type}

/-- Token number `index` of the line. Columns are counted in a 32-bit word,
which bounds the index. -/
def token (id : SymbolId) (index : UInt32) (value : Option V) : Checked (Symbol V) :=
  if index.toNat * 2 < UInt32.size then
    .ok ⟨id, .ofLineColumn 0 (index * 2), .ofLineColumn 0 (index * 2 + 1), value⟩
  else .error .multiplyOverflow

/-- Lays out tokens from a given place on. -/
def tokensFrom : Nat → List (SymbolId × V) → Checked (List (Symbol V))
  | _, [] => .ok []
  | index, (id, value) :: rest => do
    let first ← token id (UInt32.ofNat index) (some value)
    let others ← tokensFrom (index + 1) rest
    return first :: others

/-- Lays out tokens from the start of the line. -/
def tokens (items : List (SymbolId × V)) : Checked (List (Symbol V)) :=
  tokensFrom 0 items

end ShiftReduce.Layout
