import ShiftReduce.Notice
import ShiftReduce.ParseError
import ShiftReduce.ParseStack
import ShiftReduce.Proofs.Automaton

/-!
# Repairs by prescription

Which repair a syntax error gets, as lists and streams alone tell it. An
`Impasse` is a stack and an input between which the automaton has the error
action. A `Proposal` is a way to go on, and it is feasible if the automaton can
shift a window of terminals from it, or accept. `Prescribed` says what becomes of
an impasse:

* the first feasible one of `Impasse.edits` is made: insertions, then
  replacements, by ascending terminals, and then the deletion;
* if none is feasible, the error symbol takes the place of the entries above the
  nearest one that shifts it, and of the least number of tokens that makes this
  feasible (`Widens`);
* without such an entry, or without such a number before the end of the input,
  the parse is given up.
-/

namespace ShiftReduce

variable {V : Type}

/-! ## First of a kind -/

/-- An item of a list that is the first one to have a property. -/
def IsFirst {α : Type} (F : α → Prop) (xs : List α) (x : α) : Prop :=
  ∃ before after, xs = before ++ x :: after ∧ F x ∧ ∀ y ∈ before, ¬F y

namespace IsFirst

variable {α : Type} {F : α → Prop} {xs ys : List α} {x y : α}

theorem mem (h : IsFirst F xs x) : x ∈ xs := by
  obtain ⟨before, after, rfl, -, -⟩ := h
  exact List.mem_append_right _ List.mem_cons_self

theorem holds (h : IsFirst F xs x) : F x := h.choose_spec.choose_spec.2.1

theorem head (h : F x) : IsFirst F (x :: xs) x :=
  ⟨[], xs, rfl, h, by simp⟩

theorem append_left (h : IsFirst F xs x) (ys : List α) : IsFirst F (xs ++ ys) x := by
  obtain ⟨before, after, rfl, hx, hbefore⟩ := h
  exact ⟨before, after ++ ys, by simp, hx, hbefore⟩

theorem append_right (hnone : ∀ y ∈ xs, ¬F y) (h : IsFirst F ys x) : IsFirst F (xs ++ ys) x := by
  obtain ⟨before, after, rfl, hx, hbefore⟩ := h
  refine ⟨xs ++ before, after, by simp, hx, ?_⟩
  intro y hy
  rcases List.mem_append.mp hy with hy | hy
  · exact hnone y hy
  · exact hbefore y hy

theorem unique (h : IsFirst F xs x) (h' : IsFirst F xs y) : x = y := by
  induction xs with
  | nil =>
    obtain ⟨before, after, hnil, -⟩ := h
    simp at hnil
  | cons z zs ih =>
    obtain ⟨before, after, hxs, hx, hbefore⟩ := h
    obtain ⟨before', after', hys, hy, hbefore'⟩ := h'
    -- The head is the first one for both, for neither, or for one of them. The last
    -- cannot be, since the other one comes after the head.
    rcases before with _ | ⟨b, before⟩ <;> rcases before' with _ | ⟨b', before'⟩
    · simp_all
    · obtain ⟨rfl, -⟩ := List.cons.inj hxs
      obtain ⟨rfl, -⟩ := List.cons.inj hys
      exact absurd hx (hbefore' _ List.mem_cons_self)
    · obtain ⟨rfl, -⟩ := List.cons.inj hxs
      obtain ⟨rfl, -⟩ := List.cons.inj hys
      exact absurd hy (hbefore _ List.mem_cons_self)
    · obtain ⟨rfl, hzs⟩ := List.cons.inj hxs
      obtain ⟨-, hzs'⟩ := List.cons.inj hys
      exact ih ⟨before, after, hzs, hx, fun y hy => hbefore y (List.mem_cons_of_mem _ hy)⟩
        ⟨before', after', hzs', hy, fun y hy => hbefore' y (List.mem_cons_of_mem _ hy)⟩

end IsFirst

/-! ## Proposals -/

/-- A way to go on after a syntax error, and how it is told. -/
structure Proposal (V : Type) where
  /-- The entries, top first. -/
  stack : List (Entry V)
  input : Stream' (Symbol V)
  notice : Notice V

/-- Whether the automaton can go on for a window. -/
def Proposal.Feasible (t : PackedTables) (w : Nat) (P : Proposal V) : Prop :=
  Automaton.Feasible t w (P.stack.map Entry.state) (P.input.map Symbol.id)

/-- A stack and an input between which the automaton has the error action. -/
structure Impasse (V : Type) where
  top : Entry V
  below : List (Entry V)
  token : Symbol V
  rest : Stream' (Symbol V)

/-- The terminals with an action other than the error action, ascending, without the
end of input. The defaults of compressed tables hide which these are. -/
def PackedTables.validTerminals (t : PackedTables) (s : StateId) : List SymbolId :=
  if t.compressed then []
  else ((List.range t.terminalCount).map UInt16.ofNat).filter
    fun x => x != eof && decide (t.action s x ≠ .ok .error)

/-- The state that the error symbol leads to from an entry. -/
def PackedTables.errorTarget? (t : PackedTables) (error : SymbolId) (entry : Entry V) :
    Option StateId :=
  match t.goto entry.state error with
  | .ok (.shift target) => some target
  | _ => none

namespace Impasse

variable (t : PackedTables) (i : Impasse V)

/-- The entries, top first. -/
def stack : List (Entry V) := i.top :: i.below

/-- The tokens, the offending one first. -/
def input : Stream' (Symbol V) := Stream'.cons i.token i.rest

/-- A token without a value in front of the offending one, empty at the end of the
symbol below. -/
def insertion (id : SymbolId) : Proposal V :=
  let missing : Symbol V := .empty id i.top.symbol.stop i.top.symbol.stop
  ⟨i.stack, Stream'.cons missing i.input, .inserted missing⟩

def replacement (id : SymbolId) : Proposal V :=
  ⟨i.stack, Stream'.cons { i.token with id } i.rest, .replaced { i.token with id }⟩

def deletion : Proposal V := ⟨i.stack, i.rest, .removed i.token⟩

/-- What can be done to the offending token, in order. -/
def edits : List (Proposal V) :=
  (t.validTerminals i.top.state).map i.insertion ++
    (t.validTerminals i.top.state).map i.replacement ++ [i.deletion]

/-- The entries above the nearest one that shifts the error symbol. -/
def unwound (error : SymbolId) : List (Entry V) :=
  i.stack.takeWhile fun entry => (t.errorTarget? error entry).isNone

/-- The nearest entry that shifts the error symbol, and those below. -/
def kept (error : SymbolId) : List (Entry V) :=
  i.stack.dropWhile fun entry => (t.errorTarget? error entry).isNone

theorem unwound_append_kept (error : SymbolId) : i.unwound t error ++ i.kept t error = i.stack :=
  List.takeWhile_append_dropWhile

/-- The error symbol in the place of the entries above. Without any it is empty at
the start of the offending token. -/
def phrase (error : SymbolId) : Symbol V :=
  .empty error
    (((i.unwound t error).getLast?.map (·.symbol.start)).getD i.token.start)
    (((i.unwound t error).head?.map (·.symbol.stop)).getD i.token.start)

end Impasse

/-- A phrase with the tokens behind it that have been discarded. -/
def widened (phrase : Symbol V) (input : Stream' (Symbol V)) : Nat → Symbol V
  | 0 => phrase
  | k + 1 => { phrase with stop := (input.get k).stop }

/-- A phrase in the place of some entries and of the first tokens of an input. -/
def Proposal.phrase (target : StateId) (kept : List (Entry V)) (phrase : Symbol V)
    (input : Stream' (Symbol V)) (k : Nat) : Proposal V :=
  ⟨⟨target, widened phrase input k⟩ :: kept, input.drop k, .phraseRemoved (widened phrase input k)⟩

/-! ## What is prescribed -/

/-- What becomes of a syntax error. -/
inductive Resolution (V : Type) where
  | repaired (P : Proposal V)
  | givenUp (reason : Unrecoverable) (position : Position)

/-- What becomes of a phrase that can be widened, but not by the end of the input. -/
inductive Widens (t : PackedTables) (w : Nat) (propose : Nat → Proposal V)
    (input : Stream' (Symbol V)) : Resolution V → Prop
  | repaired {k : Nat} : (∀ j < k, ¬(propose j).Feasible t w ∧ (input.get j).id ≠ eof) →
      (propose k).Feasible t w → Widens t w propose input (.repaired (propose k))
  | exhausted {k : Nat} : (∀ j < k, ¬(propose j).Feasible t w ∧ (input.get j).id ≠ eof) →
      ¬(propose k).Feasible t w → (input.get k).id = eof →
      Widens t w propose input (.givenUp .inputExhausted (input.get k).start)

/-- What becomes of an impasse. -/
inductive Prescribed (t : PackedTables) (w : Nat) (i : Impasse V) : Resolution V → Prop
  | edit {P : Proposal V} : IsFirst (Proposal.Feasible t w) (i.edits t) P →
      Prescribed t w i (.repaired P)
  | noErrorState : (∀ P ∈ i.edits t, ¬P.Feasible t w) →
      (∀ error, t.errorSymbol = some error → i.kept t error = []) →
      Prescribed t w i (.givenUp .noErrorState i.token.start)
  | phrase {error : SymbolId} {entry : Entry V} {rest : List (Entry V)} {target : StateId}
      {o : Resolution V} : (∀ P ∈ i.edits t, ¬P.Feasible t w) → t.errorSymbol = some error →
      i.kept t error = entry :: rest → t.errorTarget? error entry = some target →
      Widens t w (Proposal.phrase target (entry :: rest) (i.phrase t error) i.input) i.input o →
      Prescribed t w i o

variable {t : PackedTables} {w : Nat} {propose : Nat → Proposal V} {input : Stream' (Symbol V)}
  {i : Impasse V} {o o' : Resolution V}

theorem Widens.unique (h : Widens t w propose input o) (h' : Widens t w propose input o') :
    o = o' := by
  -- Two different numbers of tokens are out of the question, since the lower one is a
  -- reason to stop that the higher one excludes.
  cases h with
  | @repaired k hbefore hk =>
    cases h' with
    | @repaired k' hbefore' hk' =>
      rcases Nat.lt_trichotomy k k' with hlt | rfl | hlt
      · exact absurd hk (hbefore' k hlt).1
      · rfl
      · exact absurd hk' (hbefore k' hlt).1
    | @exhausted k' hbefore' hk' heof' =>
      rcases Nat.lt_trichotomy k k' with hlt | rfl | hlt
      · exact absurd hk (hbefore' k hlt).1
      · exact absurd hk hk'
      · exact absurd heof' (hbefore k' hlt).2
  | @exhausted k hbefore hk heof =>
    cases h' with
    | @repaired k' hbefore' hk' =>
      rcases Nat.lt_trichotomy k k' with hlt | rfl | hlt
      · exact absurd heof (hbefore' k hlt).2
      · exact absurd hk' hk
      · exact absurd hk' (hbefore k' hlt).1
    | @exhausted k' hbefore' hk' heof' =>
      rcases Nat.lt_trichotomy k k' with hlt | rfl | hlt
      · exact absurd heof (hbefore' k hlt).2
      · rfl
      · exact absurd heof' (hbefore k' hlt).2

/-- Only feasible repairs are prescribed. -/
theorem Prescribed.feasible {P : Proposal V} (h : Prescribed t w i (.repaired P)) :
    P.Feasible t w := by
  cases h with
  | edit hP => exact hP.holds
  | phrase _ _ _ _ hwidens =>
    cases hwidens with
    | repaired _ hfeasible => exact hfeasible

/-- An impasse has at most one resolution. -/
theorem Prescribed.unique (h : Prescribed t w i o) (h' : Prescribed t w i o') : o = o' := by
  -- An edit is prescribed only where one is feasible, all else only where none is.
  cases h with
  | edit hP =>
    cases h' with
    | edit hP' => rw [hP.unique hP']
    | noErrorState hnone _ => exact absurd hP.holds (hnone _ hP.mem)
    | phrase hnone _ _ _ _ => exact absurd hP.holds (hnone _ hP.mem)
  | noErrorState hnone hstate =>
    cases h' with
    | edit hP' => exact absurd hP'.holds (hnone _ hP'.mem)
    | noErrorState _ _ => rfl
    | phrase _ herror hkept _ _ =>
      rw [hstate _ herror] at hkept
      cases hkept
  | phrase hnone herror hkept htarget hwidens =>
    cases h' with
    | edit hP' => exact absurd hP'.holds (hnone _ hP'.mem)
    | noErrorState _ hstate =>
      rw [hstate _ herror] at hkept
      cases hkept
    | phrase _ herror' hkept' htarget' hwidens' =>
      rw [herror] at herror'
      cases herror'
      rw [hkept] at hkept'
      cases hkept'
      rw [htarget] at htarget'
      cases htarget'
      exact hwidens.unique hwidens'

end ShiftReduce
