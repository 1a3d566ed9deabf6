import ShiftReduce.Proofs.Checked

/-!
# Computations that end

A computation with fuel ends if there is some fuel with which, and with any more, it comes to
one and the same result. `Halts` says so. What is put together from steps that end ends
itself, and a recursion that gives up fuel ends if it gives up something else, too.
-/

namespace ShiftReduce

variable {α β : Type} {f : Nat → Fueled α}

/-- With enough fuel a computation always comes to the same result, or breaks the same
contract. -/
def Halts (f : Nat → Fueled α) : Prop :=
  ∃ least result, result ≠ .error .outOfFuel ∧ ∀ fuel, least ≤ fuel → f fuel = result

namespace Halts

/-- What takes no fuel ends. -/
theorem const {result : Fueled α} (h : result ≠ .error .outOfFuel) : Halts fun _ => result :=
  ⟨0, result, h, fun _ _ => rfl⟩

theorem ok (a : α) : Halts fun _ => (.ok a : Fueled α) := const (by simp)

/-- What is under a contract, and without fuel, ends. -/
theorem lift (x : Checked α) : Halts fun _ => (liftM x : Fueled α) := by
  apply const
  cases x with
  | ok a => simp
  | error b => simp

/-- A second step goes on from what the first one comes to. -/
theorem bind {g : Nat → α → Fueled β} (hf : Halts f)
    (hg : ∀ a, (∃ fuel, f fuel = .ok a) → Halts fun fuel => g fuel a) :
    Halts fun fuel => f fuel >>= g fuel := by
  obtain ⟨least, result, hresult, hf⟩ := hf
  cases result with
  | error e =>
    refine ⟨least, .error e, by simpa using hresult, ?_⟩
    intro fuel hfuel
    show (f fuel >>= g fuel) = _
    rw [hf fuel hfuel]
    rfl
  | ok a =>
    obtain ⟨least', result', hresult', hg⟩ := hg a ⟨least, hf least (Nat.le_refl least)⟩
    refine ⟨max least least', result', hresult', ?_⟩
    intro fuel hfuel
    show (f fuel >>= g fuel) = _
    rw [hf fuel (by omega), ok_bind]
    exact hg fuel (by omega)

/-- A first step that takes no fuel. -/
theorem lift_bind {x : Checked α} {g : Nat → α → Fueled β}
    (hg : ∀ a, x = .ok a → Halts fun fuel => g fuel a) :
    Halts fun fuel => (liftM x : Fueled α) >>= g fuel := by
  apply Halts.bind (Halts.lift x)
  rintro a ⟨-, hx⟩
  exact hg a (liftM_eq_ok.mp hx)

/-- One more unit of fuel may be asked for. -/
theorem succ (h : Halts fun fuel => f (fuel + 1)) : Halts f := by
  obtain ⟨least, result, hresult, h⟩ := h
  refine ⟨least + 1, result, hresult, ?_⟩
  intro fuel hfuel
  obtain ⟨fuel, rfl⟩ : ∃ k, fuel = k + 1 := ⟨fuel - 1, by omega⟩
  exact h fuel (by omega)

end Halts

end ShiftReduce
