import ShiftReduce.Reduction

/-!
# Recipes

A recipe is a reduction action that can be written down: it says how the stock
values of the arguments make the value of the left-hand side.
-/

namespace ShiftReduce

/-- How the value of a left-hand side is made. -/
inductive Recipe where
  /-- No value. -/
  | nothing
  /-- The value of the first argument. -/
  | pass
  /-- The value of an argument, moved out. -/
  | take (index : Nat)
  /-- The value of an argument, copied. -/
  | value (index : Nat)
  /-- A fixed value. -/
  | const (v : Option Value)
  /-- The number of the rule. -/
  | rule
  /-- The number of arguments; a thousand if there are none. -/
  | length
  /-- The id of an argument, which has to exist. -/
  | id (index : Nat)
  /-- The sum of some arguments, all of them integers. -/
  | sum (indices : List Nat)
  /-- One more than an argument, or one if that is no integer. -/
  | count (index : Nat)
  /-- A text with the span of the arguments. -/
  | span
  /-- A text with the rule and all arguments. -/
  | tree
  /-- The inspection text of the arguments. -/
  | debug
  deriving Repr

namespace Recipe

/-- Adds up arguments, taking each value once. -/
def addUp (total : Int64) (args : Args Value) : List Nat → Option Value
  | [] => some (.int total)
  | index :: rest =>
    match args.take index with
    | (some (.int n), args) => addUp (total + n) args rest
    | _ => none

/-- The span of the arguments and the place of the entry below them. -/
def spanText (args : Args Value) : String :=
  match args.start?, args.stop? with
  | some start, some stop => s!"{start.render}-{stop.render}@{args.offset}"
  | _, _ => s!"empty@{args.offset}"

/-- An argument in the text of a tree. -/
def leafText (s : Symbol Value) : String :=
  match s.value with
  | some v => v.plain
  | none => s!"#{s.id.toNat}"

/-- The rule and its arguments. -/
def treeText (rule : RuleId) (args : Args Value) : String :=
  let leaves := " ".intercalate (args.symbols.toList.map leafText)
  s!"{rule.toNat}({leaves})"

def run (recipe : Recipe) (rule : RuleId) (args : Args Value) : Checked (Option Value) :=
  match recipe with
  | .nothing => .ok none
  | .pass => .ok (args.take 0).1
  | .take index => .ok (args.take index).1
  | .value index => .ok (args.value? index)
  | .const v => .ok v
  | .rule => .ok (some (.int (Int64.ofNat rule.toNat)))
  | .length => .ok (some (.int (Int64.ofNat (if args.isEmpty then 1000 else args.length))))
  | .id index => do
    let s ← args.symbol index
    return some (.int (Int64.ofNat s.id.toNat))
  | .sum indices => .ok (addUp 0 args indices)
  | .count index =>
    match (args.take index).1 with
    | some (.int n) => .ok (some (.int (n + 1)))
    | _ => .ok (some (.int 1))
  | .span => .ok (some (.text (spanText args)))
  | .tree => .ok (some (.text (treeText rule args)))
  | .debug => .ok (some (.text args.inspect))

/-- The recipe as the action of a rule. -/
def body {σ : Type} (recipe : Recipe) (rule : RuleId) : Actions.Body σ Value :=
  fun args memory => do return (← recipe.run rule args, memory)

/-- The recipe as the action of every rule. -/
def forAllRules {σ : Type} (recipe : Recipe) : Actions σ Value := ⟨recipe.body⟩

def table {σ : Type} (recipes : List (RuleId × Recipe)) : RuleActions σ Value :=
  recipes.foldl (fun t item => t.set item.1 (item.2.body item.1)) .empty

end Recipe

end ShiftReduce
