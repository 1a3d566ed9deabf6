import ShiftReduce.Proofs.Derivation.Trees
import ShiftReduce.Proofs.Recovery.Unwinding

/-!
# Stacks as derivations

`Derives` says that some acts have built trees whose symbols are those of a stack, and that
the function for the values has been called as they tell. One lemma for each kind of act
says what becomes of it: the trees of some symbols on top make room for one tree, so all
of them are cases of `Derives.collapse`.

The actions of a parser are a function here, with an observer: what it notes is their
memory, so the memory tells the calls of the function, all of them and in order.
-/

namespace ShiftReduce

variable {σ V : Type} {t : PackedTables} {f : RuleId → Args V → Checked (Option V)}
  {note : RuleId → Args V → σ → σ} {m memory memory' : σ} {acts : List (Act V)} {act : Act V}
  {xs ys : List (Symbol V)} {x below : Symbol V} {rule : RuleId} {info : Rule} {value : Option V}

/-- Actions that are a function, each call of which an observer notes. -/
def Actions.observed (f : RuleId → Args V → Checked (Option V)) (note : RuleId → Args V → σ → σ) :
    Actions σ V :=
  ⟨fun rule args memory => do return (← f rule args, note rule args memory)⟩

theorem Actions.observed_eq_ok {args : Args V} :
    (observed f note).reduce rule args memory = .ok (value, memory') ↔
      f rule args = .ok value ∧ note rule args memory = memory' := by
  show (f rule args >>= fun value => pure (value, note rule args memory)) = _ ↔ _
  simp only [bind_eq_ok, pure_ok, Except.ok.injEq, Prod.mk.injEq]
  constructor
  · rintro ⟨value, hvalue, rfl, hmemory⟩
    exact ⟨hvalue, hmemory⟩
  · rintro ⟨hvalue, hmemory⟩
    exact ⟨value, hvalue, rfl, hmemory⟩

/-! ## Derivations -/

/-- The symbol at the bottom of a stack. It stands for no tree. -/
def bottom : Symbol V := .empty eof .zero .zero

/-- Some acts have built trees, one for each symbol above the bottom of a stack. The memory
has noted the calls of the function from the beginning. -/
structure Derivation (t : PackedTables) (f : RuleId → Args V → Checked (Option V))
    (note : RuleId → Args V → σ → σ) (m : σ) (acts : List (Act V)) (stack : List (Symbol V))
    (memory : σ) (forest : List (Tree V)) (symbols : List (Symbol V))
    (calls : List (RuleId × Args V)) : Prop where
  stack_eq : stack = bottom :: symbols
  evaluates : Forest.Evaluates t f 1 bottom forest symbols calls
  acts_eq : Forest.acts forest = acts
  memory_eq : memory = calls.foldl (fun memory call => note call.1 call.2 memory) m

/-- A stack has a derivation by some acts. -/
def Derives (t : PackedTables) (f : RuleId → Args V → Checked (Option V))
    (note : RuleId → Args V → σ → σ) (m : σ) (acts : List (Act V)) (stack : List (Symbol V))
    (memory : σ) : Prop :=
  ∃ forest symbols calls, Derivation t f note m acts stack memory forest symbols calls

namespace Derives

theorem bottom_alone : Derives t f note m [] [bottom] m :=
  ⟨[], [], [], rfl, .nil, rfl, rfl⟩

/-- The upper symbols make room for one that has a tree, if the tree can be built by one act
from theirs. -/
theorem collapse (h : Derives t f note m acts (xs ++ ys) memory) (hne : xs ≠ [])
    (hbuild : ∀ us calls, Forest.Evaluates t f xs.length (xs.getLast hne) us ys calls →
      ∃ tree calls', Tree.Evaluates t f xs.length (xs.getLast hne) tree x (calls ++ calls') ∧
        tree.acts = Forest.acts us ++ [act] ∧
        memory' = calls'.foldl (fun memory call => note call.1 call.2 memory) memory) :
    Derives t f note m (acts ++ [act]) (xs ++ [x]) memory' := by
  obtain ⟨forest, symbols, calls, hstack, hevaluates, rfl, hmemory⟩ := h
  obtain ⟨b, zs, rfl⟩ := List.exists_cons_of_ne_nil hne
  obtain ⟨rfl, rfl⟩ := List.cons.inj hstack
  obtain ⟨ts, us, calls₁, calls₂, rfl, rfl, hlower, hupper⟩ := hevaluates.split
  have hplace : (bottom :: zs).length = 1 + zs.length := Nat.add_comm _ _
  have hlast : (bottom :: zs).getLast hne = zs.getLastD bottom := List.getLast_eq_getLastD _
  rw [hplace, hlast] at hbuild
  obtain ⟨tree, calls', htree, hacts, hmemory'⟩ := hbuild us calls₂ hupper
  have hcalls := hlower.append (.cons htree .nil)
  rw [List.append_nil] at hcalls
  refine ⟨ts ++ [tree], zs ++ [x], _, rfl, hcalls, ?_, ?_⟩
  · rw [Forest.acts_append, Forest.acts_append, Forest.acts, Forest.acts, List.append_nil, hacts,
      List.append_assoc]
  · rw [hmemory', hmemory, ← List.foldl_append, List.append_assoc]

/-- A terminal is pushed as it is. -/
theorem shift (h : Derives t f note m acts xs memory) (token : Symbol V) :
    Derives t f note m (acts ++ [.shift token]) (xs ++ [token]) memory := by
  have hne : xs ≠ [] := by
    obtain ⟨forest, symbols, calls, rfl, -⟩ := h
    exact List.cons_ne_nil _ _
  rw [← List.append_nil xs] at h
  refine h.collapse hne ?_
  rintro us calls ⟨⟩
  exact ⟨.token token, [], .token, rfl, rfl⟩

/-- A right-hand side makes room for the left-hand side of its rule. -/
theorem reduce (h : Derives t f note m acts (xs ++ ys) memory) (hne : xs ≠ [])
    (hrule : t.rule rule = .ok info) (hlength : ys.length = info.length)
    (hvalue : f rule ⟨ys.toArray, xs.length - 1⟩ = .ok value) :
    Derives t f note m (acts ++ [.reduce rule])
      (xs ++ [⟨info.lhs, (ys.head?.map Symbol.start).getD (xs.getLast hne).stop,
        (ys.getLast?.map Symbol.stop).getD (xs.getLast hne).stop, value⟩])
      (note rule ⟨ys.toArray, xs.length - 1⟩ memory) := by
  refine h.collapse hne ?_
  intro us calls hus
  exact ⟨.node rule us, [(rule, ⟨ys.toArray, xs.length - 1⟩)],
    .node hrule hus (hus.length_eq.trans hlength) hvalue, rfl, rfl⟩

/-- The symbols that were unwound make room for an error phrase. -/
theorem phrase (h : Derives t f note m acts (xs ++ ys) memory) (hne : xs ≠ [])
    (herror : t.errorSymbol = some x.id) (hvalue : x.value = none)
    (hstart : ∀ first, ys.head? = some first → x.start = first.start) :
    Derives t f note m (acts ++ [.phrase x]) (xs ++ [x]) memory := by
  refine h.collapse hne ?_
  intro us calls hus
  refine ⟨.phrase x us, [], ?_, rfl, rfl⟩
  rw [List.append_nil]
  exact .phrase hus herror hvalue hstart

/-- An error phrase that takes the place of entries. -/
theorem replaces {s s' : ParseStack V} (h : Derives t f note m acts s.symbols.toList memory)
    (hreplaces : Replaces t x s.topDown s'.topDown) :
    Derives t f note m (acts ++ [.phrase x]) s'.symbols.toList memory := by
  cases hreplaces with
  | @intro unwound kept target hstack hkept hstack' herror hvalue hstart =>
    rw [ParseStack.toList_symbols, hstack, List.map_append, List.reverse_append] at h
    rw [ParseStack.toList_symbols, hstack', List.map_cons, List.reverse_cons]
    refine h.phrase (by simpa using hkept) herror hvalue ?_
    intro first hfirst
    rw [List.head?_reverse, List.getLast?_map, Option.map_eq_some_iff] at hfirst
    obtain ⟨lowest, hlowest, rfl⟩ := hfirst
    exact hstart lowest hlowest

end Derives

end ShiftReduce
