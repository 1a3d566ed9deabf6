import ShiftReduce.Proofs.Recovery.Invariants
import ShiftReduce.Proofs.Recovery.Refinement

/-!
# What recovery leaves alone

Recovery never asks the actions for anything, so their memory stays as it is. The stack
stays as it is, too, unless an error phrase takes the place of some entries: `Replaces` says
of which. This is so whether recovery repairs the error or gives up.
-/

namespace ShiftReduce

open ShiftReduce.Configuration

variable {σ V : Type} {p : Parser σ V} {t : PackedTables} {fuel w unwound : Nat}
  {c c' : Configuration σ V} {token x phrase : Symbol V} {r : Repair σ V}
  {state target : StateId} {kept : List (Entry V)} {i : Impasse V} {P : Proposal V}

/-- An error phrase in the place of the entries on top of a stack. It begins where the
lowest of them does. -/
inductive Replaces (t : PackedTables) (x : Symbol V) (stack stack' : List (Entry V)) : Prop
  | intro {unwound kept : List (Entry V)} {target : StateId} : stack = unwound ++ kept →
      kept ≠ [] → stack' = ⟨target, x⟩ :: kept → t.errorSymbol = some x.id → x.value = none →
      (∀ lowest, unwound.getLast? = some lowest → x.start = lowest.symbol.start) →
      Replaces t x stack stack'

def Notice.phrase? : Notice V → Option (Symbol V)
  | phraseRemoved x => some x
  | _ => none

/-- A repair that is prescribed replaces entries just if it tells that. -/
theorem Prescribed.stack_cases (h : Prescribed t w i (.repaired P)) :
    (P.notice.phrase? = none ∧ P.stack = i.stack) ∨
      ∃ x, P.notice.phrase? = some x ∧ Replaces t x i.stack P.stack := by
  cases h with
  | edit hP =>
    left
    have hmem := hP.mem
    simp only [Impasse.edits, List.mem_append, List.mem_map, List.mem_singleton] at hmem
    rcases hmem with (⟨id, -, rfl⟩ | ⟨id, -, rfl⟩) | rfl
    · exact ⟨rfl, rfl⟩
    · exact ⟨rfl, rfl⟩
    · exact ⟨rfl, rfl⟩
  | @phrase error entry rest target _ _ herror hkept _ hwidens =>
    right
    have hsplit : i.stack = i.unwound t error ++ entry :: rest := by
      rw [← hkept, i.unwound_append_kept]
    cases hwidens with
    | @repaired k _ _ =>
      refine ⟨_, rfl, .intro hsplit (List.cons_ne_nil _ _) rfl ?_ ?_ ?_⟩
      · cases k <;> exact herror
      · cases k <;> rfl
      · intro lowest hlowest
        cases k <;> simp [widened, Impasse.phrase, Symbol.empty, hlowest]

/-- A configuration with the same stack, and with the same memory of the actions. -/
structure Keeps (c c' : Configuration σ V) : Prop where
  stack_eq : c'.stack = c.stack
  memory_eq : c'.memory = c.memory

namespace Keeps

theorem trans (h : Keeps c c') {c'' : Configuration σ V} (h' : Keeps c' c'') : Keeps c c'' :=
  ⟨h'.stack_eq.trans h.stack_eq, h'.memory_eq.trans h.memory_eq⟩

theorem traced (h : Keeps c c') (p : Parser σ V) (event : TraceEvent) :
    Keeps c (c'.trace p event) :=
  ⟨(trace_stack c' p event).trans h.stack_eq, (trace_memory c' p event).trans h.memory_eq⟩

end Keeps

namespace Configuration

theorem simulate_keeps {sim : Simulation V} (h : c.simulate p fuel = .ok (sim, c')) :
    Keeps c c' := by
  obtain ⟨stream, -, h⟩ := bind_eq_ok.mp h
  obtain ⟨run, -, h⟩ := bind_eq_ok.mp h
  cases h
  exact ⟨rfl, rfl⟩

theorem Simulates.keeps (h : c.Simulates p fuel c') : Keeps c c' := by
  cases h with
  | before => exact ⟨rfl, rfl⟩
  | reading _ _ => exact ⟨rfl, rfl⟩

end Configuration

namespace Recovery

/-- Edits of the offending token leave the stack and the memory alone. -/
theorem editStable_keeps (p : Parser σ V) (c : Configuration σ V) :
    EditStable p (Keeps c) fun _ => Keeps c := by
  constructor
  case stream => exact fun h _ => ⟨h.stack_eq, h.memory_eq⟩
  case traced => exact fun h => h.traced p _
  case told => exact fun h _ => ⟨h.stack_eq, h.memory_eq⟩
  case simulated => exact fun h hsim _ => h.trans (simulate_keeps hsim)
  case faulted => exact fun h hsim _ => h.trans (simulate_keeps hsim)
  case simulating => exact fun h hsim => .inl (h.trans hsim.keeps)

/-! ## Error phrases -/

/-- Widening moves the end of the phrase. -/
theorem widenPhrase_keeps (h : widenPhrase p state unwound fuel c = .ok r)
    (hstack : c.stack.topDown = ⟨target, phrase⟩ :: kept) :
    r.configuration.memory = c.memory ∧
      ∃ stop, r.configuration.stack.topDown = ⟨target, { phrase with stop }⟩ :: kept := by
  -- By induction on the fuel. The phrase is general, since each round gives it another end.
  induction fuel generalizing c phrase with
  | zero => cases h
  | succ fuel ih =>
    obtain ⟨⟨sim, c₁⟩, hsim, h⟩ := bind_eq_ok.mp h
    have hkeeps := simulate_keeps hsim
    have hstack₁ : c₁.stack.topDown = ⟨target, phrase⟩ :: kept := hkeeps.stack_eq ▸ hstack
    dsimp only at h
    split at h
    · cases h
      exact ⟨hkeeps.memory_eq, phrase.stop, hstack₁⟩
    · obtain ⟨top, -, h⟩ := bind_eq_ok.mp h
      cases h
      have htraced := hkeeps.traced p
        (.recovery .phrase state true unwound (c₁.stack.depth - sim.simulator.lowestDepth))
      refine ⟨htraced.memory_eq, phrase.stop, ?_⟩
      show (traceSuccess p .phrase state unwound sim c₁).stack.topDown = _
      rw [traceSuccess, htraced.stack_eq, hstack]
    · obtain ⟨⟨discarded, stream⟩, -, h⟩ := bind_eq_ok.mp h
      dsimp only at h
      split at h
      · cases h
        have hdiscarded : Keeps c { c₁ with stream } := ⟨hkeeps.stack_eq, hkeeps.memory_eq⟩
        have htraced := hdiscarded.traced p (.recovery .phrase state false unwound 0)
        refine ⟨htraced.memory_eq, phrase.stop, ?_⟩
        show (traceFailure p .phrase state unwound { c₁ with stream }).stack.topDown = _
        rw [traceFailure, htraced.stack_eq, hstack]
      · obtain ⟨stack, hmodify, h⟩ := bind_eq_ok.mp h
        have hmodified := ParseStack.modifyTopSymbol_eq_ok (liftM_eq_ok.mp hmodify) hstack₁
        obtain ⟨hmemory, stop, htop⟩ := ih h hmodified
        exact ⟨hmemory.trans hkeeps.memory_eq, stop, htop⟩

theorem replacePhrase_keeps (h : replacePhrase p fuel state c = .ok r) :
    r.configuration.memory = c.memory ∧ (r.configuration.stack = c.stack ∨
      ∃ x, Replaces p.tables x c.stack.topDown r.configuration.stack.topDown) := by
  obtain ⟨below, -, h⟩ := bind_eq_ok.mp h
  dsimp only at h
  have hsame : Keeps c c := ⟨rfl, rfl⟩
  split at h
  · cases h
    have htraced := hsame.traced p (.recovery .phrase state false 0 0)
    exact ⟨htraced.memory_eq, .inl htraced.stack_eq⟩
  · rename_i error herror
    obtain ⟨found, hsearch, h⟩ := bind_eq_ok.mp h
    have hfinds := errorShift?_spec (liftM_eq_ok.mp hsearch) (Nat.le_refl _)
    rw [Nat.sub_self, List.drop_zero] at hfinds
    cases hfinds with
    | nothing hnil =>
      cases h
      have htraced := hsame.traced p (.recovery .phrase state false (c.stack.depth - 1) 0)
      exact ⟨htraced.memory_eq, .inl htraced.stack_eq⟩
    | @entry e rest target hcons htarget =>
      have hsplit := (List.takeWhile_append_dropWhile
        (p := fun e => (p.tables.errorTarget? error e).isNone) (l := c.stack.topDown)).symm
      rw [hcons] at hsplit
      generalize c.stack.topDown.takeWhile _ = above at hsplit
      have hdepth : c.stack.depth - (rest.length + 1) = above.length := by
        rw [← length_topDown, hsplit, List.length_append, List.length_cons]
        omega
      -- With the entries above it gone, the phrase stands on the entry that shifts it.
      have hpushed : ∀ phrase : Symbol V,
          (({ c with stack := c.stack.truncate (rest.length + 1) }.push target
            phrase).stack).topDown = ⟨target, phrase⟩ :: e :: rest := by
        intro phrase
        rw [push_stack, ParseStack.topDown_push, ParseStack.topDown_truncate, hdepth, hsplit,
          List.drop_left]
      obtain ⟨hmemory, stop, htop⟩ := widenPhrase_keeps h (hpushed _)
      rw [← List.length_cons (a := e), phraseSymbol_eq error hsplit] at htop
      refine ⟨hmemory, .inr ⟨_, .intro hsplit (List.cons_ne_nil _ _) htop herror rfl ?_⟩⟩
      intro lowest hlowest
      simp [Symbol.empty, hlowest]

/-! ## All strategies -/

/-- Recovery leaves the memory alone, and the stack but for an error phrase. -/
theorem recover_keeps (h : recover p fuel token c = .ok r) :
    r.configuration.memory = c.memory ∧ (r.configuration.stack = c.stack ∨
      ∃ x, Replaces p.tables x c.stack.topDown r.configuration.stack.topDown) := by
  unfold recover at h
  split at h
  · cases h
    exact ⟨rfl, .inl rfl⟩
  · obtain ⟨state, -, h⟩ := bind_eq_ok.mp h
    obtain ⟨stream, -, h⟩ := bind_eq_ok.mp h
    obtain ⟨ids, -, h⟩ := bind_eq_ok.mp h
    obtain ⟨inserted, hinserted, h⟩ := bind_eq_ok.mp h
    obtain ⟨replaced, hreplaced, h⟩ := bind_eq_ok.mp h
    obtain ⟨deleted, hdeleted, h⟩ := bind_eq_ok.mp h
    obtain ⟨done, hdone, h⟩ := bind_eq_ok.mp h
    have hopened : Keeps c { c with stream } := ⟨rfl, rfl⟩
    have hkeeps : Keeps c deleted.configuration := by
      rcases ((editStable_keeps p c).edits hopened hinserted hreplaced hdeleted).held with
        hkeeps | ⟨_, hkeeps⟩
      · exact hkeeps
      · exact hkeeps
    -- Leaving the buffering mode touches neither the memory nor the stack.
    have hresult : r.configuration.memory = done.configuration.memory ∧
        r.configuration.stack = done.configuration.stack := by
      cases done <;> cases h <;> exact ⟨rfl, rfl⟩
    rw [hresult.1, hresult.2]
    cases deleted with
    | settled settled =>
      cases hdone
      exact ⟨hkeeps.memory_eq, .inl hkeeps.stack_eq⟩
    | failed c₁ =>
      obtain ⟨hmemory, hstack⟩ := replacePhrase_keeps hdone
      have hstack₁ : c₁.stack = c.stack := hkeeps.stack_eq
      rw [hstack₁] at hstack
      exact ⟨hmemory.trans hkeeps.memory_eq, hstack⟩

end Recovery

end ShiftReduce
