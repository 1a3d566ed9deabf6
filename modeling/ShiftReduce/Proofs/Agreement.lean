import ShiftReduce.Proofs.Checked

/-!
# Computations that agree

Two computations in the same steps fail alike, or they come to results that belong together. So
the one is taken apart step by step along with the other.
-/

namespace ShiftReduce

/-- Two computations that fail alike, or come to related results. -/
inductive Agree {ε α α' : Type} (R : α → α' → Prop) : Except ε α → Except ε α' → Prop
  | error (e : ε) : Agree R (.error e) (.error e)
  | ok {a : α} {a' : α'} : R a a' → Agree R (.ok a) (.ok a')

namespace Agree

variable {ε α α' β β' : Type} {R : α → α' → Prop}

theorem refl {R : α → α → Prop} (h : ∀ a, R a a) (x : Except ε α) : Agree R x x := by
  cases x with
  | error e => exact .error e
  | ok a => exact .ok (h a)

theorem symm {x : Except ε α} {x' : Except ε α'} (h : Agree R x x') :
    Agree (fun a' a => R a a') x' x := by
  cases h with
  | error e => exact .error e
  | ok h => exact .ok h

theorem mono {S : α → α' → Prop} {x : Except ε α} {x' : Except ε α'} (h : Agree R x x')
    (hS : ∀ a a', R a a' → S a a') : Agree S x x' := by
  cases h with
  | error e => exact .error e
  | ok h => exact .ok (hS _ _ h)

theorem eq {x x' : Except ε α} (h : Agree (fun a a' => a' = a) x x') : x' = x := by
  cases h with
  | error e => rfl
  | ok h => rw [h]

/-- Computations in two steps. -/
theorem bind {S : β → β' → Prop} {x : Except ε β} {x' : Except ε β'} {f : β → Except ε α}
    {f' : β' → Except ε α'} (h : Agree S x x') (hf : ∀ b b', S b b' → Agree R (f b) (f' b')) :
    Agree R (x >>= f) (x' >>= f') := by
  cases h with
  | error e => exact .error e
  | ok h => exact hf _ _ h

/-- A first step that both make. -/
theorem bind_right {f : β → Except ε α} {f' : β → Except ε α'} (hf : ∀ b, Agree R (f b) (f' b))
    (x : Except ε β) : Agree R (x >>= f) (x >>= f') := by
  cases x with
  | error e => exact .error e
  | ok b => exact hf b

/-- A first step that comes to the same. -/
theorem bind_eq {x x' : Except ε β} {f : β → Except ε α} {f' : β → Except ε α'} (h : x' = x)
    (hf : ∀ b, Agree R (f b) (f' b)) : Agree R (x >>= f) (x' >>= f') := by
  subst h
  exact bind_right hf _

theorem toFueled {x : Checked α} {x' : Checked α'} (h : Agree R x x') :
    Agree R (liftM x : Fueled α) (liftM x') := by
  cases h with
  | error b => exact .error _
  | ok h => exact .ok h

theorem exists_ok {x : Except ε α} {x' : Except ε α'} {a : α} (h : Agree R x x') (hx : x = .ok a) :
    ∃ a', x' = .ok a' ∧ R a a' := by
  subst hx
  cases h with
  | ok h => exact ⟨_, rfl, h⟩

end Agree

end ShiftReduce
