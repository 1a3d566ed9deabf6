import ShiftReduce.Proofs.Parser.Steps
import ShiftReduce.Proofs.Recovery.Lockstep

/-!
# Steps in lockstep

Parsers in lockstep make the same step, and they are in related configurations behind it. Only at
a syntax error their settings come into it, so what they do there has to be known.

* `Progress.Related`: where parsers stand behind a move.
* `Lockstep.readToken`, `Lockstep.reduce`, …: one lemma for each move.
* `Lockstep.step`: one step.
-/

namespace ShiftReduce

variable {σ V : Type} {p p' : Parser σ V} {R : Configuration σ V → Configuration σ V → Prop}
  {c c' : Configuration σ V} {q q' : Progress σ V}

/-- Parsers that stand at the same place, in related configurations. -/
inductive Progress.Related (R : Configuration σ V → Configuration σ V → Prop) :
    Progress σ V → Progress σ V → Prop
  | running {token : Symbol V} {c c' : Configuration σ V} : R c c' →
      Related R (.running token c) (.running token c')
  | finished {result : Except ParseError (Option V)} {c c' : Configuration σ V} : R c c' →
      Related R (.finished result c) (.finished result c')

theorem Progress.Related.refl (h : ∀ c, R c c) (q : Progress σ V) : q.Related R q := by
  cases q with
  | running token c => exact .running (h c)
  | finished result c => exact .finished (h c)

theorem Progress.Related.configuration (h : q.Related R q') :
    R q.configuration q'.configuration := by
  cases h with
  | running h => exact h
  | finished h => exact h

namespace Lockstep

variable (l : Lockstep p p' R)

include l

theorem reported (h : R c c') (token : Symbol V) : R (c.reported token) (c'.reported token) :=
  l.notify (l.count h _) rfl

theorem shifted (h : R c c') (target : StateId) (token : Symbol V) :
    R (p.shifted target token c) (p'.shifted target token c') :=
  l.push (l.count (l.trace h _) _) target token

theorem reduced (h : R c c') (rule : RuleId) (info : Rule) (memory : σ) :
    R (p.reduced rule info memory c) (p'.reduced rule info memory c') := by
  unfold Parser.reduced
  rw [l.stack_eq h]
  exact l.trace (l.count (l.of_memory (l.of_stack h _) memory) _) _

theorem readToken (h : R c c') :
    Agree (Progress.Related R) c.readToken c'.readToken := by
  refine (l.next h).bind ?_
  rintro d d' ⟨hlexical, hresult, hc⟩
  have htold := l.notifyLexical hc d.lexical
  dsimp only
  rw [hlexical, hresult]
  cases d.result with
  | ok token => exact .ok (.running htold)
  | error fault => exact .ok (.finished htold)

theorem follow (h : R c c') (base : StateId) (token x : Symbol V) :
    Agree (Progress.Related R) (p.follow base token x c) (p'.follow base token x c') := by
  refine Agree.bind_eq (by rw [l.tables_eq]) fun found => ?_
  cases found with
  | shift target => exact .ok (.running (l.push h target x))
  | accept => exact .ok (.finished (l.trace h .accept))
  | reduce other => exact .error _
  | error => exact .error _

theorem reduce (h : R c c') (rule : RuleId) (token : Symbol V) :
    Agree (Progress.Related R) (p.reduce rule token c) (p'.reduce rule token c') := by
  refine Agree.bind_eq (by rw [l.tables_eq]) fun info => ?_
  dsimp only
  rw [l.stack_eq h, l.memory_eq h, l.actions_eq]
  split
  · exact .error _
  · refine Agree.bind_right (fun below => ?_) _
    refine Agree.bind_right (fun symbols => ?_) _
    refine Agree.bind_right (fun produced => ?_) _
    obtain ⟨value, memory⟩ := produced
    have hreduced := l.reduced h rule info memory
    rw [Parser.reduced, Parser.reduced, l.stack_eq h] at hreduced
    refine Agree.bind_eq (congrArg ParseStack.topState (l.stack_eq hreduced)) fun base => ?_
    exact l.follow hreduced base token
      (Parser.produced info ⟨symbols, c.stack.depth - info.length - 1⟩ below value)

/-- Both make the same step, if they do the same at a syntax error. -/
theorem step (h : R c c') (fuel : Nat) (token : Symbol V)
    (hrepair : ∀ entry, c.stack.top = .ok entry →
      p.tables.action entry.state token.id = .ok .error →
      Agree (Progress.Related R) (p.repair fuel token c) (p'.repair fuel token c')) :
    Agree (Progress.Related R) (p.step fuel token c) (p'.step fuel token c') := by
  have htop' := congrArg ParseStack.top (l.stack_eq h)
  cases htop : c.stack.top with
  | error b =>
    rw [Parser.step, Parser.step, htop', htop]
    exact .error _
  | ok entry =>
    rw [htop] at htop'
    cases hact : p.tables.action entry.state token.id with
    | error b =>
      rw [Parser.step, Parser.step, htop', htop]
      simp only [liftM_ok, ok_bind, l.tables_eq, hact]
      exact .error _
    | ok action =>
      have hact' : p'.tables.action entry.state token.id = .ok action := by rw [l.tables_eq, hact]
      rw [Parser.step_eq_act htop hact, Parser.step_eq_act htop' hact']
      cases action with
      | shift target => exact (l.readToken (l.shifted h target token)).toFueled
      | reduce rule => exact (l.reduce h rule token).toFueled
      | accept => exact .ok (.finished (l.trace h .accept))
      | error => exact hrepair entry htop hact

end Lockstep

end ShiftReduce
