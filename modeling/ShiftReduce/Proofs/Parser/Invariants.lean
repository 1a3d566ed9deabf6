import ShiftReduce.Proofs.Parser.Acts
import ShiftReduce.Proofs.Parser.Moments
import ShiftReduce.Proofs.Recovery.Invariants

/-!
# Invariants of a parse

What a parse does are a few acts, and those of recovery are among them. A property that each of
them keeps holds at every moment of the parse, until a fault of the scanner may put another one
in its place; and this is the end of the parse.

* `Stable`: what the acts have to keep.
* `Stable.step_ends`: what one step leaves, and `Stable.reaches` what all steps do.
* `Stable.held`: what holds at every moment.
-/

namespace ShiftReduce

open ShiftReduce.Configuration Relation

variable {σ V : Type}

/-- Where a parse stands, if nothing but a fault of the scanner can hurt a property. -/
inductive Progress.Ends (P : Configuration σ V → Prop)
    (F : ScanError → Configuration σ V → Prop) : Progress σ V → Prop
  | running {token : Symbol V} {c : Configuration σ V} : P c → Ends P F (.running token c)
  | accepted {value : Option V} {c : Configuration σ V} : P c →
      Ends P F (.finished (.ok value) c)
  | givenUp {reason : Unrecoverable} {position : Position} {c : Configuration σ V} : P c →
      Ends P F (.finished (.error (.unrecoverable reason position)) c)
  | fault {fault : ScanError} {c : Configuration σ V} : F fault c →
      Ends P F (.finished (.error (.scanner fault)) c)

theorem Progress.Ends.held {q : Progress σ V} {P : Configuration σ V → Prop}
    {F : ScanError → Configuration σ V → Prop} (h : q.Ends P F) : Held P F q.configuration := by
  cases h with
  | running hP => exact .inl hP
  | accepted hP => exact .inl hP
  | givenUp hP => exact .inl hP
  | fault hF => exact .inr ⟨_, hF⟩

namespace Parser

/-- A property that is kept by whatever the parse of a scanner and a goal does. -/
structure Stable (p : Parser σ V) (scanner : Scanner V) (goal : Option SymbolId)
    (P : Configuration σ V → Prop) (F : ScanError → Configuration σ V → Prop) : Prop where
  opened : ∀ {stream memory},
    TokenStream.ofScanner scanner p.settings.window p.slotBytes = .ok stream →
    P (.initial stream memory)
  marked : ∀ {stream stream' memory marker}, goal = some marker →
    TokenStream.ofScanner scanner p.settings.window p.slotBytes = .ok stream →
    stream.withLeading (goalMarker marker) = .ok stream' → P (.initial stream' memory)
  read : ∀ {c q}, P c → c.readToken = .ok q → q.Ends P F
  shifted : ∀ {c entry token target}, P c → c.stack.top = .ok entry →
    p.tables.action entry.state token.id = .ok (.shift target) → P (p.shifted target token c)
  reduced : ∀ {c rule info memory}, P c → p.tables.rule rule = .ok info →
    info.length < c.stack.depth → P (p.reduced rule info memory c)
  followed : ∀ {c base target x}, P c → c.stack.topState = .ok base →
    p.tables.goto base x.id = .ok (.shift target) → P (c.push target x)
  accepted : ∀ {c}, P c → P (c.trace p .accept)
  reported : ∀ {c token}, P c → P (c.reported token)
  repaired : ∀ {c}, P c →
    P (c.count fun stats => { stats with errorsRecovered := stats.errorsRecovered + 1 })
  recovery : Recovery.Stable p P F

variable {p : Parser σ V} {scanner : Scanner V} {goal : Option SymbolId} {fuel : Nat}
  {c c' : Configuration σ V} {token : Symbol V} {q : Progress σ V} {rule : RuleId}
  {P : Configuration σ V → Prop} {F : ScanError → Configuration σ V → Prop}

/-- A reduction within the contract follows the goto of a left-hand side from what is left of
the stack. -/
theorem reduce_follows (h : p.reduce rule token c = .ok q) :
    ∃ info memory base x, p.tables.rule rule = .ok info ∧ info.length < c.stack.depth ∧
      (p.reduced rule info memory c).stack.topState = .ok base ∧
      x.id = info.lhs ∧ p.follow base token x (p.reduced rule info memory c) = .ok q := by
  obtain ⟨info, hrule, h⟩ := bind_eq_ok.mp h
  dsimp only at h
  split at h
  · cases h
  · rename_i hlength
    obtain ⟨below, -, h⟩ := bind_eq_ok.mp h
    obtain ⟨symbols, -, h⟩ := bind_eq_ok.mp h
    obtain ⟨⟨value, memory⟩, -, h⟩ := bind_eq_ok.mp h
    obtain ⟨base, hbase, h⟩ := bind_eq_ok.mp h
    have hfollow : p.follow base token (produced info
        ⟨symbols, c.stack.depth - info.length - 1⟩ below value)
        (p.reduced rule info memory c) = .ok q := h
    exact ⟨info, memory, base, produced info _ below value, hrule, Nat.not_le.mp hlength, hbase,
      rfl, hfollow⟩

namespace Stable

variable (hs : p.Stable scanner goal P F)

include hs

theorem reduce_ends (hP : P c) (h : p.reduce rule token c = .ok q) : q.Ends P F := by
  obtain ⟨info, memory, base, x, hrule, hlength, hbase, -, h⟩ := reduce_follows h
  have hreduced : P (p.reduced rule info memory c) := hs.reduced hP hrule hlength
  obtain ⟨found, hgoto, h⟩ := bind_eq_ok.mp h
  cases found with
  | shift target =>
    cases h
    exact .running (hs.followed hreduced hbase hgoto)
  | accept =>
    cases h
    exact .accepted (hs.accepted hreduced)
  | reduce other => cases h
  | error => cases h

theorem repair_ends (hP : P c) (h : p.repair fuel token c = .ok q) : q.Ends P F := by
  have hreported : P (c.reported token) := hs.reported hP
  unfold repair at h
  split at h
  · cases h
    exact .givenUp hreported
  · dsimp only at h
    split at h
    · cases h
      exact .givenUp hreported
    · obtain ⟨r, hrecover, h⟩ := bind_eq_ok.mp h
      have hends := hs.recovery.recover_ends hreported hrecover
      cases hends with
      | repaired hP => exact hs.read (hs.repaired hP) (liftM_eq_ok.mp h)
      | givenUp hP =>
        cases h
        exact .givenUp hP
      | fault hF =>
        cases h
        exact .fault hF

/-- A step keeps an invariant. -/
theorem step_ends (hP : P c) (h : p.step fuel token c = .ok q) : q.Ends P F := by
  obtain ⟨entry, action, htop, hact, h⟩ := exists_act h
  cases action with
  | shift target => exact hs.read (hs.shifted hP htop hact) (liftM_eq_ok.mp h)
  | reduce rule => exact hs.reduce_ends hP (liftM_eq_ok.mp h)
  | accept =>
    cases h
    exact .accepted (hs.accepted hP)
  | error => exact hs.repair_ends hP h

theorem starts (h : p.Starts scanner goal q) : q.Ends P F := by
  cases h with
  | parse hopen hread => exact hs.read (hs.opened hopen) hread
  | parseGoal hopen hlead hread => exact hs.read (hs.marked rfl hopen hlead) hread

/-- Steps keep an invariant. -/
theorem reaches {start : Progress σ V} (hstart : p.Starts scanner goal start)
    (h : ReflTransGen p.Step start q) : q.Ends P F := by
  induction h with
  | refl => exact hs.starts hstart
  | tail _ hstep ih =>
    cases hstep with
    | intro hstep =>
      cases ih with
      | running hP => exact hs.step_ends hP hstep

theorem stepping (hP : P c) (h : p.Stepping fuel token c c') : Held P F c' := by
  cases h with
  | shifted htop hact => exact .inl (hs.shifted hP htop hact)
  | reduced _ _ hrule hlength _ _ => exact .inl (hs.reduced hP hrule hlength)
  | reported _ _ => exact .inl (hs.reported hP)
  | recovering _ _ _ _ hrecovering => exact hs.recovery.recovering (hs.reported hP) hrecovering
  | recovered _ _ _ _ hrecover =>
    have hends := hs.recovery.recover_ends (hs.reported hP) hrecover
    cases hends with
    | repaired hP => exact .inl (hs.repaired hP)
  | done hstep => exact (hs.step_ends hP hstep).held

/-- An invariant holds at every moment of a parse. -/
theorem held (h : p.MomentOf scanner goal c) : Held P F c := by
  cases h with
  | opened hopen => exact .inl (hs.opened hopen)
  | marked hgoal hopen hlead => exact .inl (hs.marked hgoal hopen hlead)
  | between hstart hreach => exact (hs.reaches hstart hreach).held
  | amid hstart hreach hstepping =>
    cases hs.reaches hstart hreach with
    | running hP => exact hs.stepping hP hstepping

end Stable

end Parser

end ShiftReduce
