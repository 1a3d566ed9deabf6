import ShiftReduce.Breach

/-!
# Results under a contract

A computation in steps returns a result only if every step does. The statements
take such a computation apart, step by step, and put it together again. They
hold for `Checked` and for `Fueled`; `liftM` goes from the one to the other.
-/

namespace ShiftReduce

variable {ε α β : Type}

@[simp] theorem ok_bind (a : α) (f : α → Except ε β) : (Except.ok a >>= f) = f a := rfl

@[simp] theorem error_bind (e : ε) (f : α → Except ε β) : (Except.error e >>= f) = .error e := rfl

@[simp] theorem pure_ok (a : α) : (pure a : Except ε α) = .ok a := rfl

@[simp] theorem throw_error (e : ε) : (throw e : Except ε α) = .error e := rfl

@[simp] theorem map_ok (f : α → β) (a : α) : (f <$> (Except.ok a : Except ε α)) = .ok (f a) := rfl

/-- A computation in two steps returns what the second one does on the result of
the first. -/
theorem bind_eq_ok {x : Except ε α} {f : α → Except ε β} {b : β} :
    (x >>= f) = .ok b ↔ ∃ a, x = .ok a ∧ f a = .ok b := by
  cases x with
  | ok a => simp
  | error e => simp

theorem map_eq_ok {x : Except ε α} {f : α → β} {b : β} :
    (f <$> x) = .ok b ↔ ∃ a, x = .ok a ∧ f a = b := by
  cases x with
  | ok a => simp
  | error e =>
    show Except.error e = .ok b ↔ _
    simp

/-- A computation that has been run, and whose result has passed a check. -/
theorem exists_ok_of_any {x : Except ε α} {f : α → Bool} (h : x.toOption.any f = true) :
    ∃ a, x = .ok a ∧ f a = true := by
  cases x with
  | ok a => exact ⟨a, rfl, h⟩
  | error e => cases h

theorem liftM_eq_ok {x : Checked α} {a : α} : (liftM x : Fueled α) = .ok a ↔ x = .ok a := by
  cases x with
  | ok a => simp
  | error e => simp

end ShiftReduce
