import Mathlib.Data.List.Chain
import ShiftReduce.Proofs.Stream.Pending

/-!
# Spans in the order of the source

A symbol covers a piece of the source, from its start up to its stop. Symbols are in the
order of the source if each of them stops where the next one starts, or before that.

* `InOrder`: an endless sequence of symbols in order, and `Spaced`: a list of them.
* `inOrder_append`: a sequence is in order if its parts are and meet in order.
* `InOrder.collapse`: some symbols in the middle can make room for one that covers them.
* `Spaced.withEnd`: tokens in order, and then the end of the input.
-/

namespace ShiftReduce

variable {V : Type} {x y : Symbol V} {xs ys : List (Symbol V)} {s : Stream' (Symbol V)}
  {a b c pos : Position}

namespace Position

theorem le_refl (a : Position) : a ≤ a := UInt32.le_refl a.packed

theorem le_trans (h : a ≤ b) (h' : b ≤ c) : a ≤ c := UInt32.le_trans h h'

theorem zero_le (a : Position) : zero ≤ a := UInt32.zero_le

end Position

/-! ## Sequences in order -/

/-- A symbol covers the source that another one does. -/
structure Symbol.Covers (x y : Symbol V) : Prop where
  start_le : x.start ≤ y.start
  le_stop : y.stop ≤ x.stop

/-- An endless sequence of symbols, in the order of the source. -/
structure InOrder (s : Stream' (Symbol V)) : Prop where
  start_le_stop : ∀ k, (s.get k).start ≤ (s.get k).stop
  stop_le_start : ∀ k, (s.get k).stop ≤ (s.get (k + 1)).start

/-- Some symbols, in the order of the source. -/
structure Spaced (xs : List (Symbol V)) : Prop where
  start_le_stop : ∀ x ∈ xs, x.start ≤ x.stop
  stop_le_start : xs.IsChain fun x y => x.stop ≤ y.start

theorem spaced_nil : Spaced ([] : List (Symbol V)) := ⟨by simp, .nil⟩

theorem spaced_cons : Spaced (x :: xs) ↔
    x.start ≤ x.stop ∧ (∀ y ∈ xs.head?, x.stop ≤ y.start) ∧ Spaced xs := by
  constructor
  · intro ⟨hspans, hchain⟩
    rw [List.isChain_cons] at hchain
    rw [List.forall_mem_cons] at hspans
    exact ⟨hspans.1, hchain.1, hspans.2, hchain.2⟩
  · intro ⟨hspan, hnext, hspans, hchain⟩
    exact ⟨List.forall_mem_cons.mpr ⟨hspan, hspans⟩, List.isChain_cons.mpr ⟨hnext, hchain⟩⟩

theorem inOrder_cons : InOrder (Stream'.cons x s) ↔
    x.start ≤ x.stop ∧ x.stop ≤ (s.get 0).start ∧ InOrder s := by
  constructor
  · intro ⟨hspans, hnext⟩
    exact ⟨hspans 0, hnext 0, fun k => hspans (k + 1), fun k => hnext (k + 1)⟩
  · intro ⟨hspan, hnext, h⟩
    constructor
    · intro k
      cases k with
      | zero => exact hspan
      | succ k => exact h.start_le_stop k
    · intro k
      cases k with
      | zero => exact hnext
      | succ k => exact h.stop_le_start k

/-- A sequence is in order if its parts are, and if they meet in order. -/
theorem inOrder_append : InOrder (xs ++ₛ s) ↔
    Spaced xs ∧ (∀ x ∈ xs.getLast?, x.stop ≤ (s.get 0).start) ∧ InOrder s := by
  induction xs with
  | nil => simp [spaced_nil]
  | cons x xs ih =>
    rw [Stream'.cons_append_stream, inOrder_cons, spaced_cons, ih]
    cases xs with
    | nil => simp [spaced_nil]
    | cons y ys =>
      rw [List.getLast?_cons_cons, Stream'.cons_append_stream, Stream'.get_zero_cons,
        List.head?_cons]
      simp only [Option.mem_some_iff, forall_eq']
      tauto

/-! ## Symbols that cover others -/

namespace Spaced

/-- The first of some symbols starts first. -/
theorem start_le (h : Spaced xs) : ∀ x ∈ xs.head?, ∀ y ∈ xs, x.start ≤ y.start := by
  induction xs with
  | nil => simp
  | cons x xs ih =>
    obtain ⟨hspan, hnext, hxs⟩ := spaced_cons.mp h
    simp only [List.head?_cons, Option.mem_some_iff, forall_eq', List.forall_mem_cons]
    refine ⟨Position.le_refl _, ?_⟩
    intro y hy
    obtain ⟨first, hfirst⟩ : ∃ first, first ∈ xs.head? :=
      Option.isSome_iff_exists.mp (List.isSome_head?.mpr (List.ne_nil_of_mem hy))
    exact Position.le_trans hspan
      (Position.le_trans (hnext first hfirst) (ih hxs first hfirst y hy))

/-- The last of some symbols stops last. -/
theorem le_stop (h : Spaced xs) : ∀ x ∈ xs.getLast?, ∀ y ∈ xs, y.stop ≤ x.stop := by
  induction xs with
  | nil => simp
  | cons x xs ih =>
    obtain ⟨-, hnext, hxs⟩ := spaced_cons.mp h
    cases xs with
    | nil => simp [Position.le_refl]
    | cons y ys =>
      rw [List.getLast?_cons_cons]
      intro last hlast
      have hall := ih hxs last hlast
      refine List.forall_mem_cons.mpr ⟨?_, hall⟩
      exact Position.le_trans (hnext y rfl)
        (Position.le_trans (hxs.start_le_stop y List.mem_cons_self) (hall y List.mem_cons_self))

/-- A symbol from the start of the first one to the stop of the last one covers them all. -/
theorem covers (h : Spaced ys) (hstart : x.start = (ys.head?.map Symbol.start).getD pos)
    (hstop : x.stop = (ys.getLast?.map Symbol.stop).getD pos) : ∀ y ∈ ys, x.Covers y := by
  intro y hy
  have hne := List.ne_nil_of_mem hy
  constructor
  · rw [hstart, List.head?_eq_some_head hne]
    exact h.start_le _ (List.head?_eq_some_head hne) y hy
  · rw [hstop, List.getLast?_eq_some_getLast hne]
    exact h.le_stop _ (List.getLast?_eq_some_getLast hne) y hy

end Spaced

/-- Symbols in the middle make room for one that covers them. Where there are none, it is
empty at a place between its neighbours. -/
theorem InOrder.collapse (h : InOrder (xs ++ₛ (ys ++ₛ s))) (pos : Position)
    (hstart : x.start = (ys.head?.map Symbol.start).getD pos)
    (hstop : x.stop = (ys.getLast?.map Symbol.stop).getD pos)
    (hempty : ys = [] → (∀ y ∈ xs.getLast?, y.stop ≤ pos) ∧ pos ≤ (s.get 0).start) :
    InOrder (xs ++ₛ Stream'.cons x s) := by
  obtain ⟨hxs, hmeet, h⟩ := inOrder_append.mp h
  obtain ⟨hys, hnext, hs⟩ := inOrder_append.mp h
  rw [inOrder_append, inOrder_cons, Stream'.get_zero_cons]
  cases ys with
  | nil =>
    obtain ⟨hbelow, hpos⟩ := hempty rfl
    rw [hstart, hstop]
    exact ⟨hxs, hbelow, Position.le_refl pos, hpos, hs⟩
  | cons y ys =>
    obtain ⟨last, hlast⟩ : ∃ last, (y :: ys).getLast? = some last :=
      ⟨_, List.getLast?_eq_some_getLast (List.cons_ne_nil y ys)⟩
    have hcovers := hys.covers hstart hstop y List.mem_cons_self
    rw [hlast] at hstop
    have hspan : x.start ≤ x.stop := Position.le_trans hcovers.start_le
      (Position.le_trans (hys.start_le_stop y List.mem_cons_self) hcovers.le_stop)
    refine ⟨hxs, ?_, hspan, ?_, hs⟩
    · rw [hstart]
      exact hmeet
    · rw [hstop]
      exact hnext last hlast

/-! ## Tokens and the end of the input -/

/-- Behind tokens in order, the end of the input is in order. -/
theorem Spaced.withEnd (h : Spaced xs) (hstop : ∀ x ∈ xs.head?, pos ≤ x.start) :
    InOrder (Scanner.withEnd pos xs) ∧ pos ≤ ((Scanner.withEnd pos xs).get 0).start := by
  rw [Scanner.withEnd, inOrder_append]
  refine ⟨⟨h, ?_, ?_⟩, ?_⟩
  · intro x hx
    rw [Option.mem_def.mp hx]
    exact Position.le_refl _
  · exact ⟨fun _ => Position.le_refl _, fun _ => Position.le_refl _⟩
  · cases xs with
    | nil => exact Position.le_refl pos
    | cons x xs => exact hstop x rfl

end ShiftReduce
