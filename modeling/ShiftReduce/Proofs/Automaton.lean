import Mathlib.Data.Stream.Init
import ShiftReduce.Tables.Packed

/-!
# The automaton by itself

What tables do with a stack of states and an endless stream of terminals,
without symbols, values, buffers or fuel. A stack is a list with the top in
front.

* `Responds` is one move: a shift, a reduction with its goto, accepting, or one
  of three ways to refuse. A stack and a terminal determine it
  (`Responds.unique`).
* `Reduces` is a sequence of reductions before one terminal.
* `Run w` makes moves until `w` terminals have been shifted, and succeeds then
  or when the automaton accepts; it fails where the automaton refuses.
* `Feasible w` says that a run succeeds.
-/

namespace ShiftReduce.Automaton

/-- Why the automaton stops without success. -/
inductive Refusal where
  | errorAction
  /-- The rule would take the bottom state off. -/
  | ruleTooLong (rule : RuleId) (length : Nat)
  /-- The goto neither shifts nor accepts. -/
  | strayNonterminal (lhs : SymbolId) (state : StateId) (found : Action)
  deriving DecidableEq, Repr

/-- What the automaton does. -/
inductive Reply where
  | shift (target : StateId)
  | reduce (rule : RuleId) (target : StateId)
  /-- Accepts, on the goto of a rule or else by an action. -/
  | accept (goto : Option RuleId)
  | refuse (reason : Refusal)
  deriving DecidableEq, Repr

def Reply.target? : Reply → Option StateId
  | shift target => some target
  | reduce _ target => some target
  | accept _ => none
  | refuse _ => none

/-- A move: what the automaton does, and what it leaves of the stack to do it on. -/
structure Response where
  reply : Reply
  kept : List StateId
  deriving DecidableEq, Repr

namespace Response

def stack (r : Response) : List StateId := r.reply.target?.toList ++ r.kept

def isShift (r : Response) : Bool :=
  match r.reply with
  | .shift _ => true
  | _ => false

end Response

/-- One move before a terminal. -/
inductive Responds (t : PackedTables) (x : SymbolId) : List StateId → Response → Prop
  | shift {s target : StateId} {below : List StateId} :
      t.action s x = .ok (.shift target) →
      Responds t x (s :: below) ⟨.shift target, s :: below⟩
  | accept {s : StateId} {below : List StateId} :
      t.action s x = .ok .accept →
      Responds t x (s :: below) ⟨.accept none, s :: below⟩
  | error {s : StateId} {below : List StateId} :
      t.action s x = .ok .error →
      Responds t x (s :: below) ⟨.refuse .errorAction, s :: below⟩
  | tooLong {s : StateId} {below : List StateId} {rule : RuleId} {info : Rule} :
      t.action s x = .ok (.reduce rule) → t.rule rule = .ok info →
      (s :: below).length ≤ info.length →
      Responds t x (s :: below) ⟨.refuse (.ruleTooLong rule info.length), s :: below⟩
  | reduce {s base target : StateId} {below rest : List StateId} {rule : RuleId} {info : Rule} :
      t.action s x = .ok (.reduce rule) → t.rule rule = .ok info →
      (s :: below).drop info.length = base :: rest → t.goto base info.lhs = .ok (.shift target) →
      Responds t x (s :: below) ⟨.reduce rule target, base :: rest⟩
  | gotoAccept {s base : StateId} {below rest : List StateId} {rule : RuleId} {info : Rule} :
      t.action s x = .ok (.reduce rule) → t.rule rule = .ok info →
      (s :: below).drop info.length = base :: rest → t.goto base info.lhs = .ok .accept →
      Responds t x (s :: below) ⟨.accept (some rule), base :: rest⟩
  | stray {s base : StateId} {below rest : List StateId} {rule : RuleId} {info : Rule}
      {found : Action} : t.action s x = .ok (.reduce rule) → t.rule rule = .ok info →
      (s :: below).drop info.length = base :: rest → t.goto base info.lhs = .ok found →
      (∀ target, found ≠ .shift target) → found ≠ .accept →
      Responds t x (s :: below) ⟨.refuse (.strayNonterminal info.lhs base found), base :: rest⟩

/-- Reductions before one terminal, up to another stack. -/
inductive Reduces (t : PackedTables) (x : SymbolId) :
    List StateId → List Response → List StateId → Prop
  | refl {stack : List StateId} : Reduces t x stack [] stack
  | head {stack final : List StateId} {r : Response} {rs : List Response} {rule : RuleId}
      {target : StateId} : Responds t x stack r → r.reply = .reduce rule target →
      Reduces t x r.stack rs final → Reduces t x stack (r :: rs) final

/-- Moves until `w` terminals have been shifted, or until the automaton accepts or
refuses. The flag tells whether the run succeeds, and the last stack is what it
leaves. -/
inductive Run (t : PackedTables) :
    Nat → List StateId → Stream' SymbolId → List Response → Bool → List StateId → Prop
  | full {stack : List StateId} {input : Stream' SymbolId} : Run t 0 stack input [] true stack
  | shift {w : Nat} {stack final : List StateId} {input : Stream' SymbolId} {r : Response}
      {rs : List Response} {ok : Bool} {target : StateId} :
      Responds t input.head stack r → r.reply = .shift target →
      Run t w r.stack input.tail rs ok final → Run t (w + 1) stack input (r :: rs) ok final
  | reduce {w : Nat} {stack final : List StateId} {input : Stream' SymbolId} {r : Response}
      {rs : List Response} {ok : Bool} {rule : RuleId} {target : StateId} :
      Responds t input.head stack r → r.reply = .reduce rule target →
      Run t (w + 1) r.stack input rs ok final → Run t (w + 1) stack input (r :: rs) ok final
  | accept {w : Nat} {stack : List StateId} {input : Stream' SymbolId} {r : Response}
      {goto : Option RuleId} :
      Responds t input.head stack r → r.reply = .accept goto →
      Run t (w + 1) stack input [r] true r.stack
  | refuse {w : Nat} {stack : List StateId} {input : Stream' SymbolId} {r : Response}
      {reason : Refusal} :
      Responds t input.head stack r → r.reply = .refuse reason →
      Run t (w + 1) stack input [r] false r.stack

/-- Whether `w` terminals can be shifted, or fewer until the automaton accepts. -/
def Feasible (t : PackedTables) (w : Nat) (stack : List StateId) (input : Stream' SymbolId) :
    Prop :=
  ∃ rs final, Run t w stack input rs true final

/-- The number of terminals that are shifted. -/
def shifts (rs : List Response) : Nat := rs.countP Response.isShift

variable {t : PackedTables} {x : SymbolId} {s base target : StateId} {rule : RuleId} {info : Rule}
  {below rest stack stack' final : List StateId} {found : Action} {r r' : Response}
  {rs rs' : List Response} {w : Nat} {input : Stream' SymbolId} {ok ok' : Bool}

/-! ## One move -/

/-- A stack and a terminal determine the move. -/
theorem Responds.unique (h : Responds t x stack r) (h' : Responds t x stack r') : r = r' := by
  -- Two moves of different kinds disagree on the action, on the goto, or on whether
  -- the rule is too long for the stack.
  cases h <;> cases h' <;> grind [List.drop_eq_nil_of_le]

/-- Before every move the action is looked up. -/
theorem Responds.exists_action (h : Responds t x (s :: below) r) :
    ∃ action, t.action s x = .ok action := by
  cases h <;> exact ⟨_, by assumption⟩

theorem Responds.kept_ne_nil (h : Responds t x stack r) : r.kept ≠ [] := by
  cases h <;> simp

theorem Responds.stack_ne_nil (h : Responds t x stack r) : r.stack ≠ [] := by
  intro hnil
  exact h.kept_ne_nil (List.append_eq_nil_iff.mp hnil).2

/-- What a reduction leaves is the stack without the right-hand side. -/
theorem Responds.kept_of_reduce (h : Responds t x stack r) (hreply : r.reply = .reduce rule target)
    (hrule : t.rule rule = .ok info) : r.kept = stack.drop info.length := by
  cases h with
  | reduce _ hrule' hdrop _ =>
    cases hreply
    rw [hrule] at hrule'
    cases hrule'
    exact hdrop.symm
  | _ => cases hreply

/-! ## Runs -/

theorem shifts_cons (r : Response) (rs : List Response) :
    shifts (r :: rs) = shifts rs + if r.isShift then 1 else 0 := by
  rw [shifts, shifts, List.countP_cons]

theorem shifts_append (rs rs' : List Response) : shifts (rs ++ rs') = shifts rs + shifts rs' :=
  List.countP_append

theorem Response.isShift_of_reply (h : r.reply = .shift target) : r.isShift = true := by
  rw [Response.isShift, h]

theorem Response.not_isShift_of_reply (h : ∀ target, r.reply ≠ .shift target) :
    r.isShift = false := by
  unfold Response.isShift
  split
  · rename_i found hfound
    exact absurd hfound (h found)
  · rfl

theorem Reduces.shifts_eq_zero (h : Reduces t x stack rs final) : shifts rs = 0 := by
  induction h with
  | refl => rfl
  | head _ hreply _ ih =>
    rw [shifts_cons, ih, Response.not_isShift_of_reply (by simp [hreply])]
    rfl

/-- Reductions can stand in front of a run. -/
theorem Reduces.run (h : Reduces t input.head stack rs stack')
    (hrun : Run t (w + 1) stack' input rs' ok final) :
    Run t (w + 1) stack input (rs ++ rs') ok final := by
  induction h with
  | refl => exact hrun
  | head hr hreply _ ih => exact .reduce hr hreply (ih hrun)

/-- The first move of a run, and how the run goes on after it. -/
theorem Run.first (h : Run t (w + 1) stack input rs ok final) :
    ∃ r rest, rs = r :: rest ∧ Responds t input.head stack r ∧
      match r.reply with
      | .shift _ => Run t w r.stack input.tail rest ok final
      | .reduce _ _ => Run t (w + 1) r.stack input rest ok final
      | .accept _ => rest = [] ∧ ok = true ∧ final = r.stack
      | .refuse _ => rest = [] ∧ ok = false ∧ final = r.stack := by
  cases h with
  | shift hr hreply hrest => exact ⟨_, _, rfl, hr, by rw [hreply]; exact hrest⟩
  | reduce hr hreply hrest => exact ⟨_, _, rfl, hr, by rw [hreply]; exact hrest⟩
  | accept hr hreply => exact ⟨_, _, rfl, hr, by rw [hreply]; exact ⟨rfl, rfl, rfl⟩⟩
  | refuse hr hreply => exact ⟨_, _, rfl, hr, by rw [hreply]; exact ⟨rfl, rfl, rfl⟩⟩

/-- A run is determined by where it starts. -/
theorem Run.unique {final' : List StateId} (h : Run t w stack input rs ok final)
    (h' : Run t w stack input rs' ok' final') : rs = rs' ∧ ok = ok' ∧ final = final' := by
  -- By induction on one run: the other one has to make the same first move.
  induction h generalizing rs' ok' final' with
  | full =>
    cases h'
    exact ⟨rfl, rfl, rfl⟩
  | shift hr hreply _ ih =>
    obtain ⟨r', rest, rfl, hr', hrest⟩ := h'.first
    obtain rfl := hr.unique hr'
    rw [hreply] at hrest
    obtain ⟨rfl, rfl, rfl⟩ := ih hrest
    exact ⟨rfl, rfl, rfl⟩
  | reduce hr hreply _ ih =>
    obtain ⟨r', rest, rfl, hr', hrest⟩ := h'.first
    obtain rfl := hr.unique hr'
    rw [hreply] at hrest
    obtain ⟨rfl, rfl, rfl⟩ := ih hrest
    exact ⟨rfl, rfl, rfl⟩
  | accept hr hreply =>
    obtain ⟨r', rest, rfl, hr', hrest⟩ := h'.first
    obtain rfl := hr.unique hr'
    rw [hreply] at hrest
    obtain ⟨rfl, rfl, rfl⟩ := hrest
    exact ⟨rfl, rfl, rfl⟩
  | refuse hr hreply =>
    obtain ⟨r', rest, rfl, hr', hrest⟩ := h'.first
    obtain rfl := hr.unique hr'
    rw [hreply] at hrest
    obtain ⟨rfl, rfl, rfl⟩ := hrest
    exact ⟨rfl, rfl, rfl⟩

/-- What a run decides is what is feasible. -/
theorem Run.feasible_iff (h : Run t w stack input rs ok final) :
    Feasible t w stack input ↔ ok = true := by
  constructor
  · rintro ⟨rs', final', h'⟩
    exact (h.unique h').2.1
  · rintro rfl
    exact ⟨rs, final, h⟩

/-- A run shifts no more terminals than it is to; one that fails shifts fewer. -/
theorem Run.shifts_le (h : Run t w stack input rs ok final) :
    shifts rs ≤ w ∧ (ok = false → shifts rs < w) := by
  induction h with
  | full => exact ⟨Nat.le_refl _, by simp⟩
  | shift _ hreply _ ih =>
    rw [shifts_cons, Response.isShift_of_reply hreply]
    refine ⟨Nat.succ_le_succ ih.1, ?_⟩
    intro hfail
    exact Nat.succ_lt_succ (ih.2 hfail)
  | reduce _ hreply _ ih =>
    rw [shifts_cons, Response.not_isShift_of_reply (by simp [hreply])]
    exact ih
  | accept _ hreply =>
    rw [shifts_cons, Response.not_isShift_of_reply (by simp [hreply])]
    exact ⟨Nat.zero_le _, by simp⟩
  | refuse _ hreply =>
    rw [shifts_cons, Response.not_isShift_of_reply (by simp [hreply])]
    exact ⟨Nat.zero_le _, fun _ => Nat.succ_pos _⟩

end ShiftReduce.Automaton
