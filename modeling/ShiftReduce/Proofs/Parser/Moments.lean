import ShiftReduce.Proofs.Parser.Steps
import ShiftReduce.Proofs.Recovery.Moments

/-!
# Moments of a parse

A parse is observed between its steps, and within each of them: behind a shift before the
next token is read, in the middle of a reduction, and all through recovery. `Moment` is any
configuration of the kind, from the opening of the stream on, and `MomentOf` is one of the
parse of a given scanner and goal.
-/

namespace ShiftReduce.Parser

open Recovery Relation

variable {σ V : Type} {p : Parser σ V} {c : Configuration σ V}

/-- The moments of a step at the current token. -/
inductive Stepping (p : Parser σ V) (fuel : Nat) (token : Symbol V) (c : Configuration σ V) :
    Configuration σ V → Prop
  | shifted {entry : Entry V} {target : StateId} : c.stack.top = .ok entry →
      p.tables.action entry.state token.id = .ok (.shift target) →
      Stepping p fuel token c (p.shifted target token c)
  | reduced {entry : Entry V} {rule : RuleId} {info : Rule} {symbols : Array (Symbol V)}
      {value : Option V} {memory : σ} : c.stack.top = .ok entry →
      p.tables.action entry.state token.id = .ok (.reduce rule) →
      p.tables.rule rule = .ok info → info.length < c.stack.depth →
      c.stack.symbolsFrom (c.stack.depth - info.length) = .ok symbols →
      p.actions.reduce rule ⟨symbols, c.stack.depth - info.length - 1⟩ c.memory =
        .ok (value, memory) →
      Stepping p fuel token c (p.reduced rule info memory c)
  | reported {entry : Entry V} : c.stack.top = .ok entry →
      p.tables.action entry.state token.id = .ok .error →
      Stepping p fuel token c (c.reported token)
  | recovering {entry : Entry V} {c' : Configuration σ V} : c.stack.top = .ok entry →
      p.tables.action entry.state token.id = .ok .error → p.settings.recovery = true →
      (c.reported token).stats.syntaxErrors ≤ p.settings.maxErrors →
      Recovering p fuel token (c.reported token) c' → Stepping p fuel token c c'
  | recovered {entry : Entry V} {c' : Configuration σ V} : c.stack.top = .ok entry →
      p.tables.action entry.state token.id = .ok .error → p.settings.recovery = true →
      (c.reported token).stats.syntaxErrors ≤ p.settings.maxErrors →
      recover p fuel token (c.reported token) = .ok (.repaired c') →
      Stepping p fuel token c
        (c'.count fun stats => { stats with errorsRecovered := stats.errorsRecovered + 1 })
  | done {q : Progress σ V} : p.step fuel token c = .ok q →
      Stepping p fuel token c q.configuration

/-- The moments of a parse, with the marker of a goal or without one. -/
inductive Moment (p : Parser σ V) : Configuration σ V → Prop
  | opened {scanner : Scanner V} {stream : TokenStream V} {memory : σ} :
      TokenStream.ofScanner scanner p.settings.window p.slotBytes = .ok stream →
      Moment p (.initial stream memory)
  | marked {scanner : Scanner V} {stream stream' : TokenStream V} {marker : SymbolId}
      {memory : σ} : TokenStream.ofScanner scanner p.settings.window p.slotBytes = .ok stream →
      stream.withLeading (goalMarker marker) = .ok stream' → Moment p (.initial stream' memory)
  | between {q : Progress σ V} : p.Reachable q → Moment p q.configuration
  | amid {fuel : Nat} {token : Symbol V} {c c' : Configuration σ V} :
      p.Reachable (.running token c) → p.Stepping fuel token c c' → Moment p c'

/-! ## Moments of one parse -/

/-- The moments of a parse of what a scanner delivers, with the marker of a goal in front or
without one. -/
inductive MomentOf (p : Parser σ V) (scanner : Scanner V) (goal : Option SymbolId) :
    Configuration σ V → Prop
  | opened {stream : TokenStream V} {memory : σ} :
      TokenStream.ofScanner scanner p.settings.window p.slotBytes = .ok stream →
      MomentOf p scanner goal (.initial stream memory)
  | marked {stream stream' : TokenStream V} {marker : SymbolId} {memory : σ} :
      goal = some marker →
      TokenStream.ofScanner scanner p.settings.window p.slotBytes = .ok stream →
      stream.withLeading (goalMarker marker) = .ok stream' →
      MomentOf p scanner goal (.initial stream' memory)
  | between {start q : Progress σ V} : p.Starts scanner goal start →
      ReflTransGen p.Step start q → MomentOf p scanner goal q.configuration
  | amid {start : Progress σ V} {fuel : Nat} {token : Symbol V} {c c' : Configuration σ V} :
      p.Starts scanner goal start → ReflTransGen p.Step start (.running token c) →
      p.Stepping fuel token c c' → MomentOf p scanner goal c'

/-- Each moment is one of some parse. -/
theorem Moment.exists_momentOf (h : p.Moment c) : ∃ scanner goal, p.MomentOf scanner goal c := by
  cases h with
  | @opened scanner _ _ hopen => exact ⟨scanner, none, .opened hopen⟩
  | @marked scanner _ _ marker _ hopen hlead =>
    exact ⟨scanner, some marker, .marked rfl hopen hlead⟩
  | between hreach =>
    obtain ⟨scanner, goal, start, hstart, hreach⟩ := hreach
    exact ⟨scanner, goal, .between hstart hreach⟩
  | amid hreach hstepping =>
    obtain ⟨scanner, goal, start, hstart, hreach⟩ := hreach
    exact ⟨scanner, goal, .amid hstart hreach hstepping⟩

end ShiftReduce.Parser
