import ShiftReduce.Proofs.Checked

/-!
# Outcomes of computations

What a computation can come to: a result with some property, or a failure of some
kind. `Returns` says both at once, so that what can go wrong in a whole program is
put together from what can go wrong in its parts. A failure for lack of fuel is never
excluded.
-/

namespace ShiftReduce

variable {ε α β : Type} {fails fails' : ε → Prop} {P : α → Prop} {Q : β → Prop}

/-- A computation returns something with a property, or fails in an expected way. -/
def Returns (fails : ε → Prop) (P : α → Prop) : Except ε α → Prop
  | .ok a => P a
  | .error e => fails e

/-- An interrupt is expected if it is for lack of fuel, or if the breach is expected. -/
def Interrupt.Expected (fails : Breach → Prop) : Interrupt → Prop
  | .breach cause => fails cause
  | .outOfFuel => True

theorem Interrupt.Expected.mono {fails fails' : Breach → Prop} {e : Interrupt}
    (h : e.Expected fails) (hfails : ∀ b, fails b → fails' b) : e.Expected fails' := by
  cases e with
  | breach b => exact hfails b h
  | outOfFuel => trivial

theorem returns_error {e : ε} (h : fails e) : Returns fails P (.error e : Except ε α) := h

namespace Returns

variable {x : Except ε α}

theorem of_eq_ok {a : α} (h : Returns fails P x) (hx : x = .ok a) : P a := by
  subst hx
  exact h

theorem of_eq_error {e : ε} (h : Returns fails P x) (hx : x = .error e) : fails e := by
  subst hx
  exact h

/-- A computation that has been shown to return. -/
theorem of_exists (h : ∃ a, x = .ok a ∧ P a) : Returns fails P x := by
  obtain ⟨a, rfl, ha⟩ := h
  exact ha

theorem mono (h : Returns fails P x) (hfails : ∀ e, fails e → fails' e)
    {P' : α → Prop} (hP : ∀ a, x = .ok a → P a → P' a) : Returns fails' P' x := by
  cases x with
  | ok a => exact hP a rfl h
  | error e => exact hfails e h

/-- A second step goes on from what the first one returns. -/
theorem bind {f : α → Except ε β} (h : Returns fails P x)
    (hf : ∀ a, x = .ok a → P a → Returns fails Q (f a)) : Returns fails Q (x >>= f) := by
  cases x with
  | ok a => exact hf a rfl h
  | error e => exact h

end Returns

/-- What is known of a computation that returns holds of its result. -/
theorem holds_of_exists {x : Except ε α} {a : α} (h : ∃ b, x = .ok b ∧ P b) (hx : x = .ok a) :
    P a := by
  obtain ⟨b, hb, hP⟩ := h
  rw [hx] at hb
  cases hb
  exact hP

/-- A computation under a contract, as a step of one with fuel. -/
theorem Returns.lift {fails : Breach → Prop} {x : Checked α} (h : Returns fails P x) :
    Returns (Interrupt.Expected fails) P (liftM x : Fueled α) := by
  cases x with
  | ok a => exact h
  | error b => exact h

end ShiftReduce
