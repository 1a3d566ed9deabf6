import ShiftReduce.Reduction
import ShiftReduce.Tables.Packed

/-!
# Derivation trees

What stands on the stack of a parser, as trees: a shifted terminal, an error phrase, or a
rule with a tree for each symbol of its right-hand side. A phrase keeps the trees that were
unwound for it, so that nothing of the parse is lost.

* `Forest.acts`: the acts that build trees, in the order in which a bottom-up parser
  does them.
* `Forest.leaves`: the leaves of trees, from left to right.
* `Forest.Evaluates`: the symbols that trees stand for, from a place of the stack on, by a
  function for the values, and how the function is called.
-/

namespace ShiftReduce

variable {V : Type}

/-- What a parser does to its stack. -/
inductive Act (V : Type) where
  /-- Pushes a terminal. -/
  | shift (token : Symbol V)
  /-- Puts the left-hand side of a rule in the place of the right-hand side. -/
  | reduce (rule : RuleId)
  /-- Puts an error phrase in the place of some symbols. -/
  | phrase (x : Symbol V)
deriving DecidableEq

def Act.token? : Act V → Option (Symbol V)
  | shift token => some token
  | reduce _ => none
  | phrase _ => none

def Act.rule? : Act V → Option RuleId
  | shift _ => none
  | reduce rule => some rule
  | phrase _ => none

/-- A derivation of an entry of the stack. -/
inductive Tree (V : Type) where
  | token (x : Symbol V)
  | phrase (x : Symbol V) (unwound : List (Tree V))
  | node (rule : RuleId) (children : List (Tree V))

/-- A leaf of a derivation: a terminal, or an error phrase where terminals were unwound. -/
inductive Leaf (V : Type) where
  | token (x : Symbol V)
  | phrase (x : Symbol V) (unwound : List (Symbol V))

/-- The terminals that were shifted where a leaf stands. -/
def Leaf.tokens : Leaf V → List (Symbol V)
  | token x => [x]
  | phrase _ unwound => unwound

/-! ## Acts and leaves -/

mutual

/-- The acts that build a tree, the last one of them for its root. -/
def Tree.acts : Tree V → List (Act V)
  | .token x => [.shift x]
  | .phrase x unwound => Forest.acts unwound ++ [.phrase x]
  | .node rule children => Forest.acts children ++ [.reduce rule]

/-- The acts that build trees, from left to right. -/
def Forest.acts : List (Tree V) → List (Act V)
  | [] => []
  | tree :: trees => tree.acts ++ Forest.acts trees

end

mutual

/-- The leaves of a tree. A phrase is a leaf. -/
def Tree.leaves : Tree V → List (Leaf V)
  | .token x => [.token x]
  | .phrase x unwound => [.phrase x ((Forest.leaves unwound).flatMap Leaf.tokens)]
  | .node _ children => Forest.leaves children

def Forest.leaves : List (Tree V) → List (Leaf V)
  | [] => []
  | tree :: trees => tree.leaves ++ Forest.leaves trees

end

theorem Forest.acts_append (ts us : List (Tree V)) :
    Forest.acts (ts ++ us) = Forest.acts ts ++ Forest.acts us := by
  induction ts with
  | nil => rfl
  | cons tree ts ih => rw [List.cons_append, acts, acts, ih, List.append_assoc]

/-- Trees whose last act was a reduction end with a tree of the rule. -/
theorem Forest.exists_node {trees : List (Tree V)} {before : List (Act V)} {rule : RuleId}
    (h : Forest.acts trees = before ++ [.reduce rule]) :
    ∃ ts children, trees = ts ++ [.node rule children] := by
  rcases List.eq_nil_or_concat trees with rfl | ⟨ts, tree, rfl⟩
  · simp [Forest.acts] at h
  · rw [List.concat_eq_append, acts_append, acts, acts, List.append_nil] at h
    cases tree with
    | token x => simp [Tree.acts] at h
    | phrase x unwound => simp [Tree.acts, ← List.append_assoc] at h
    | node rule' children =>
      simp only [Tree.acts, ← List.append_assoc] at h
      cases (List.append_inj' h rfl).2
      exact ⟨ts, children, List.concat_eq_append⟩

mutual

/-- The leaves of a tree are the terminals that have been shifted for it, but for those
that have been unwound. -/
theorem Tree.tokens_leaves : ∀ tree : Tree V,
    tree.leaves.flatMap Leaf.tokens = tree.acts.filterMap Act.token?
  | .token x => rfl
  | .phrase x unwound => by
    simp only [Tree.leaves, Tree.acts, List.filterMap_append, ← Forest.tokens_leaves unwound]
    simp [Leaf.tokens, Act.token?]
  | .node rule children => by
    simp only [Tree.leaves, Tree.acts, List.filterMap_append, Forest.tokens_leaves children]
    simp [Act.token?]

theorem Forest.tokens_leaves : ∀ trees : List (Tree V),
    (Forest.leaves trees).flatMap Leaf.tokens = (Forest.acts trees).filterMap Act.token?
  | [] => rfl
  | tree :: trees => by
    rw [Forest.leaves, Forest.acts, List.flatMap_append, List.filterMap_append,
      tree.tokens_leaves, Forest.tokens_leaves trees]

end

/-! ## Evaluation -/

variable {t : PackedTables} {f : RuleId → Args V → Checked (Option V)} {index : Nat}
  {below x : Symbol V} {trees : List (Tree V)} {xs ys : List (Symbol V)}
  {calls calls' : List (RuleId × Args V)}

mutual

/-- The symbol that a tree stands for at an index of the stack, above another symbol, and the
calls of the function that give the values in it. -/
inductive Tree.Evaluates (t : PackedTables) (f : RuleId → Args V → Checked (Option V)) :
    Nat → Symbol V → Tree V → Symbol V → List (RuleId × Args V) → Prop
  | token {index : Nat} {below x : Symbol V} : Tree.Evaluates t f index below (.token x) x []
  | phrase {index : Nat} {below x : Symbol V} {unwound : List (Tree V)} {xs : List (Symbol V)}
      {calls : List (RuleId × Args V)} : Forest.Evaluates t f index below unwound xs calls →
      t.errorSymbol = some x.id → x.value = none →
      (∀ first, xs.head? = some first → x.start = first.start) →
      Tree.Evaluates t f index below (.phrase x unwound) x calls
  /-- A rule without children stands at the end of the symbol below. -/
  | node {index : Nat} {below : Symbol V} {rule : RuleId} {info : Rule}
      {children : List (Tree V)} {xs : List (Symbol V)} {value : Option V}
      {calls : List (RuleId × Args V)} : t.rule rule = .ok info →
      Forest.Evaluates t f index below children xs calls → children.length = info.length →
      f rule ⟨xs.toArray, index - 1⟩ = .ok value →
      Tree.Evaluates t f index below (.node rule children)
        ⟨info.lhs, (xs.head?.map Symbol.start).getD below.stop,
          (xs.getLast?.map Symbol.stop).getD below.stop, value⟩
        (calls ++ [(rule, ⟨xs.toArray, index - 1⟩)])

/-- The symbols of trees that stand one above the other, the first one at an index of the
stack. -/
inductive Forest.Evaluates (t : PackedTables) (f : RuleId → Args V → Checked (Option V)) :
    Nat → Symbol V → List (Tree V) → List (Symbol V) → List (RuleId × Args V) → Prop
  | nil {index : Nat} {below : Symbol V} : Forest.Evaluates t f index below [] [] []
  | cons {index : Nat} {below x : Symbol V} {tree : Tree V} {trees : List (Tree V)}
      {xs : List (Symbol V)} {calls calls' : List (RuleId × Args V)} :
      Tree.Evaluates t f index below tree x calls →
      Forest.Evaluates t f (index + 1) x trees xs calls' →
      Forest.Evaluates t f index below (tree :: trees) (x :: xs) (calls ++ calls')

end

mutual

/-- The function is called once for each rule that is reduced, in order. -/
theorem Tree.Evaluates.rules : ∀ {index : Nat} {below x : Symbol V} {tree : Tree V}
    {calls : List (RuleId × Args V)}, Tree.Evaluates t f index below tree x calls →
    calls.map Prod.fst = tree.acts.filterMap Act.rule?
  | _, _, _, .token _, _, .token => rfl
  | _, _, _, .phrase _ _, _, .phrase h _ _ _ => by
    rw [Tree.acts, List.filterMap_append, ← h.rules]
    simp [Act.rule?]
  | _, _, _, .node _ _, _, .node _ h _ _ => by
    rw [Tree.acts, List.filterMap_append, ← h.rules, List.map_append]
    simp [Act.rule?]

theorem Forest.Evaluates.rules : ∀ {index : Nat} {below : Symbol V} {trees : List (Tree V)}
    {xs : List (Symbol V)} {calls : List (RuleId × Args V)},
    Forest.Evaluates t f index below trees xs calls →
    calls.map Prod.fst = (Forest.acts trees).filterMap Act.rule?
  | _, _, [], _, _, .nil => rfl
  | _, _, _ :: _, _, _, .cons h h' => by
    rw [Forest.acts, List.filterMap_append, List.map_append, h.rules, h'.rules]

end

namespace Forest.Evaluates

/-- There is one tree for each symbol. -/
theorem length_eq (h : Forest.Evaluates t f index below trees xs calls) :
    trees.length = xs.length := by
  induction xs generalizing index below trees calls with
  | nil =>
    cases h
    rfl
  | cons x xs ih =>
    cases h with
    | cons _ h' => rw [List.length_cons, List.length_cons, ih h']

theorem append {us : List (Tree V)} (h : Forest.Evaluates t f index below trees xs calls)
    (h' : Forest.Evaluates t f (index + xs.length) (xs.getLastD below) us ys calls') :
    Forest.Evaluates t f index below (trees ++ us) (xs ++ ys) (calls ++ calls') := by
  induction xs generalizing index below trees calls with
  | nil =>
    cases h
    exact h'
  | cons x xs ih =>
    cases h with
    | cons htree hrest =>
      rw [List.append_assoc]
      refine .cons htree (ih hrest ?_)
      rw [List.length_cons, List.getLastD_cons] at h'
      rw [Nat.add_assoc, Nat.add_comm 1]
      exact h'

/-- The trees of the upper symbols are evaluated above the lower ones. -/
theorem split (h : Forest.Evaluates t f index below trees (xs ++ ys) calls) :
    ∃ ts us calls₁ calls₂, trees = ts ++ us ∧ calls = calls₁ ++ calls₂ ∧
      Forest.Evaluates t f index below ts xs calls₁ ∧
      Forest.Evaluates t f (index + xs.length) (xs.getLastD below) us ys calls₂ := by
  induction xs generalizing index below trees calls with
  | nil => exact ⟨[], trees, [], calls, rfl, rfl, .nil, h⟩
  | cons x xs ih =>
    cases h with
    | @cons _ _ _ tree _ _ calls₀ _ htree hrest =>
      obtain ⟨ts, us, calls₁, calls₂, rfl, rfl, hlower, hupper⟩ := ih hrest
      refine ⟨tree :: ts, us, calls₀ ++ calls₁, calls₂, rfl, (List.append_assoc _ _ _).symm,
        .cons htree hlower, ?_⟩
      rw [List.length_cons, List.getLastD_cons, Nat.add_comm xs.length, ← Nat.add_assoc]
      exact hupper

end Forest.Evaluates

end ShiftReduce
