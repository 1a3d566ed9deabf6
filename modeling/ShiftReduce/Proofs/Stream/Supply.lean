import ShiftReduce.Proofs.Stream.Pending

/-!
# The tokens left in a stream

A stream of tokens is endless, but from some place on it is nothing but the end of input.
`Supplies` bounds the number of the other tokens. Each of them that is read makes the bound
one less, and each that is put in makes it one more.
-/

namespace ShiftReduce

variable {V : Type} {s : Stream' (Symbol V)} {x y : Symbol V} {m n : Nat}

/-- A stream with no more than `m` tokens other than the end of input. -/
def Supplies (s : Stream' (Symbol V)) (m : Nat) : Prop :=
  ∃ tokens rest, s = tokens ++ₛ rest ∧ (∀ k, (rest.get k).id = eof) ∧
    tokens.countP (!·.isEof) ≤ m

theorem Symbol.isEof_iff : x.isEof = true ↔ x.id = eof := by
  rw [isEof, beq_iff_eq]

namespace Supplies

theorem mono (h : Supplies s m) (hmn : m ≤ n) : Supplies s n := by
  obtain ⟨tokens, rest, hs, hrest, hcount⟩ := h
  exact ⟨tokens, rest, hs, hrest, Nat.le_trans hcount hmn⟩

/-- A token more. -/
theorem cons (h : Supplies s m) (x : Symbol V) : Supplies (Stream'.cons x s) (m + 1) := by
  obtain ⟨tokens, rest, rfl, hrest, hcount⟩ := h
  refine ⟨x :: tokens, rest, rfl, hrest, ?_⟩
  rw [List.countP_cons]
  split <;> omega

/-- The first token is the end of input, or it is one of those that are counted. -/
theorem uncons (h : Supplies (Stream'.cons x s) m) :
    (x.id = eof ∧ Supplies s m) ∨ ∃ k, m = k + 1 ∧ Supplies s k := by
  obtain ⟨tokens, rest, hs, hrest, hcount⟩ := h
  cases tokens with
  | nil =>
    have hx : x.id = eof := by
      rw [show x = rest.get 0 from congrFun hs 0]
      exact hrest 0
    refine .inl ⟨hx, [], s, rfl, ?_, Nat.zero_le _⟩
    intro k
    rw [show s.get k = rest.get (k + 1) from congrFun hs (k + 1)]
    exact hrest (k + 1)
  | cons y tokens =>
    rw [Stream'.cons_append_stream] at hs
    obtain ⟨rfl, rfl⟩ := Stream'.cons_injective2 hs
    rw [List.countP_cons] at hcount
    by_cases hx : x.id = eof
    · refine .inl ⟨hx, tokens, rest, rfl, hrest, ?_⟩
      omega
    · have hnot : (!x.isEof) = true := by
        rw [Bool.not_eq_true', ← Bool.not_eq_true, Symbol.isEof_iff]
        exact hx
      rw [if_pos hnot] at hcount
      exact .inr ⟨m - 1, by omega, tokens, rest, rfl, hrest, by omega⟩

theorem tail (h : Supplies (Stream'.cons x s) m) : Supplies s m := by
  rcases h.uncons with ⟨-, hs⟩ | ⟨k, rfl, hs⟩
  · exact hs
  · exact hs.mono (Nat.le_succ k)

/-- A token other than the end of input is counted. -/
theorem tail_of_ne (h : Supplies (Stream'.cons x s) m) (hx : x.id ≠ eof) :
    ∃ k, m = k + 1 ∧ Supplies s k := by
  rcases h.uncons with ⟨heof, -⟩ | hk
  · exact absurd heof hx
  · exact hk

theorem drop (h : Supplies s m) (k : Nat) : Supplies (s.drop k) m := by
  induction k with
  | zero => exact h
  | succ k ih =>
    rw [← Stream'.eta (s.drop k)] at ih
    have htail := ih.tail
    rw [Stream'.tail_drop'] at htail
    exact htail

end Supplies

/-- Some tokens in front of a stream. -/
theorem supplies_append (h : Supplies s m) (xs : List (Symbol V)) :
    Supplies (xs ++ₛ s) (xs.countP (!·.isEof) + m) := by
  obtain ⟨tokens, rest, rfl, hrest, hcount⟩ := h
  refine ⟨xs ++ tokens, rest, (Stream'.append_append_stream _ _ _).symm, hrest, ?_⟩
  rw [List.countP_append]
  omega

/-- Behind some tokens there is nothing but the end of input. -/
theorem supplies_withEnd (stop : Position) (tokens : List (Symbol V)) :
    Supplies (Scanner.withEnd stop tokens) (tokens.countP (!·.isEof)) :=
  ⟨tokens, _, rfl, fun _ => rfl, Nat.le_refl _⟩

/-- A stream over a scanner has only so many tokens left. -/
theorem TokenStream.exists_supplies (s : TokenStream V) : ∃ m, Supplies s.pending m := by
  rw [pending, Scanner.yields_eq]
  exact ⟨_, supplies_append (supplies_withEnd _ _) _⟩

end ShiftReduce
