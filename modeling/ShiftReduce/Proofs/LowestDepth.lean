import ShiftReduce.Proofs.Parser.Paths

/-!
# How far a simulation eats into its base

A simulator keeps the least depth that its states have had. Reductions drop states and gotos enter
others on top, so in the end the states may be as many as they were while those given are gone. The
least depth tells them apart: the states given below it have been there all the time, and each of
the others has been dropped by some reduction.

* `Trail`: the moments of a simulation, with all simulators so far, the last one first.
* `LowestDepth`: what a least depth says about the states given.
* `Trail.lowestDepth`: the simulator keeps the least depth of all of its trail.
* `exists_trail`: a simulation that returns has left a trail.
* `LowestDepth.dropCount_add`: how many of the states given have been dropped.
-/

namespace ShiftReduce

variable {V : Type} {t : PackedTables} {x : SymbolId} {turn : Turn} {sim sim' : Simulator}

namespace Simulator

def bottomUp (sim : Simulator) : List StateId := sim.states.items.toList

theorem bottomUp_ofStates (base : Array StateId) : (ofStates base).bottomUp = base.toList := by
  rw [bottomUp, ofStates, Stack.items_copyFrom]

theorem bottomUp_enter (sim : Simulator) (state : StateId) :
    (sim.enter state).bottomUp = sim.bottomUp ++ [state] := by
  rw [bottomUp, enter, Stack.items_push, Array.toList_push, bottomUp]

theorem bottomUp_dropTo (sim : Simulator) (depth : Nat) :
    (sim.dropTo depth).bottomUp = sim.bottomUp.take depth := by
  rw [bottomUp, dropTo, Stack.items_truncate]
  simp [bottomUp]

theorem size_eq_length (sim : Simulator) : sim.states.size = sim.bottomUp.length := by
  rw [bottomUp, Array.length_toList, Stack.size]

/-- A reduction drops the right-hand side of a rule, and keeps the bottom state. -/
def ReducesTo (t : PackedTables) (sim sim' : Simulator) : Prop :=
  ∃ rule info, t.rule rule = .ok info ∧ info.length < sim.states.size ∧
    sim' = sim.dropTo (sim.states.size - info.length)

end Simulator

namespace Simulation

open Simulator

/-! ## Trails -/

/-- The moments of a simulation from some states over a stream, with all simulators until then, the
last one first. -/
inductive Trail (t : PackedTables) (base : Array StateId) (stream : TokenStream V) :
    List Simulator → Turn → TokenStream V → Prop
  | start : Trail t base stream [.ofStates base] .read stream
  | read {sim : Simulator} {earlier : List Simulator} {s : TokenStream V} {d : Delivery V}
      {token : Symbol V} : Trail t base stream (sim :: earlier) .read s →
      s.nextBuffered = .ok d → d.result = .ok token →
      Trail t base stream (sim :: earlier) (.act token.id) d.stream
  | shift {sim : Simulator} {earlier : List Simulator} {s : TokenStream V} {x : SymbolId}
      {state target : StateId} : Trail t base stream (sim :: earlier) (.act x) s →
      sim.states.top? = some state → t.action state x = .ok (.shift target) →
      Trail t base stream (sim.enter target :: sim :: earlier) .read s
  | drop {sim : Simulator} {earlier : List Simulator} {s : TokenStream V} {x : SymbolId}
      {state : StateId} {rule : RuleId} {info : Rule} :
      Trail t base stream (sim :: earlier) (.act x) s → sim.states.top? = some state →
      t.action state x = .ok (.reduce rule) → t.rule rule = .ok info →
      info.length < sim.states.size →
      Trail t base stream (sim.dropTo (sim.states.size - info.length) :: sim :: earlier)
        (.follow x info.lhs) s
  | enter {sim : Simulator} {earlier : List Simulator} {s : TokenStream V} {x lhs : SymbolId}
      {state target : StateId} : Trail t base stream (sim :: earlier) (.follow x lhs) s →
      sim.states.top? = some state → t.goto state lhs = .ok (.shift target) →
      Trail t base stream (sim.enter target :: sim :: earlier) (.act x) s

variable {base : Array StateId} {stream s : TokenStream V} {read : List SymbolId}
  {rules : List RuleId} {earlier trail : List Simulator} {states : List StateId}

/-- Each moment of a simulation is at the end of a trail. -/
theorem Course.exists_trail (h : Course t base stream read rules turn sim s) :
    ∃ earlier, Trail t base stream (sim :: earlier) turn s := by
  induction h with
  | start => exact ⟨_, .start⟩
  | read _ hnext hresult ih =>
    obtain ⟨earlier, htrail⟩ := ih
    exact ⟨_, htrail.read hnext hresult⟩
  | shift _ htop hact ih =>
    obtain ⟨earlier, htrail⟩ := ih
    exact ⟨_, htrail.shift htop hact⟩
  | drop _ htop hact hrule hlength ih =>
    obtain ⟨earlier, htrail⟩ := ih
    exact ⟨_, htrail.drop htop hact hrule hlength⟩
  | enter _ htop hgoto ih =>
    obtain ⟨earlier, htrail⟩ := ih
    exact ⟨_, htrail.enter htop hgoto⟩

/-- A simulation that returns has left a trail up to its end. -/
theorem exists_trail {fuel : Nat} {run : Simulation V}
    (h : Simulation.run t fuel base stream = .ok run) :
    ∃ earlier turn s, Trail t base stream (run.simulator :: earlier) turn s ∧
      Ends t turn s run := by
  obtain ⟨read, rules, turn, s, hcourse, hends⟩ := Course.start.proceeds (proceeds_of_runTokens h)
  obtain ⟨earlier, htrail⟩ := hcourse.exists_trail
  exact ⟨earlier, turn, s, htrail, hends (by omega)⟩

/-! ## The least depth -/

/-- A depth is the least one of a trail, the last simulator first. The states given are all there
below it at any time, and each of the others has been there, with all below it, until a reduction
has dropped it. -/
structure LowestDepth (t : PackedTables) (states : List StateId) (trail : List Simulator)
    (depth : Nat) : Prop where
  pos : states ≠ [] → 1 ≤ depth
  le_length : depth ≤ states.length
  le_size : ∀ sim ∈ trail, depth ≤ sim.states.size
  attained : ∃ sim ∈ trail, sim.states.size = depth
  kept : ∀ sim ∈ trail, states.take depth <+: sim.bottomUp
  popped : ∀ i, depth ≤ i → i < states.length → ∃ later after before earlier,
    trail = later ++ after :: before :: earlier ∧ ReducesTo t before after ∧
      after.states.size ≤ i ∧ ∀ sim ∈ before :: earlier, states.take (i + 1) <+: sim.bottomUp

namespace LowestDepth

theorem start (t : PackedTables) (base : Array StateId) :
    LowestDepth t base.toList [.ofStates base] (ofStates base).lowestDepth := by
  have hdepth : (ofStates base).lowestDepth = base.toList.length := (Array.length_toList).symm
  have hsize : (ofStates base).states.size = base.toList.length := by
    rw [size_eq_length, bottomUp_ofStates]
  rw [hdepth]
  constructor
  case pos => exact List.length_pos_iff.mpr
  case le_length => exact Nat.le_refl _
  case le_size => exact List.forall_mem_singleton.mpr (Nat.le_of_eq hsize.symm)
  case attained => exact ⟨_, List.mem_singleton_self _, hsize⟩
  case kept =>
    rw [List.forall_mem_singleton, bottomUp_ofStates]
    exact List.take_prefix _ _
  case popped =>
    intro i hle hlt
    omega

/-- What has been dropped before is dropped still. -/
theorem popped_cons {depth : Nat} (h : LowestDepth t states trail depth) (sim' : Simulator)
    {i : Nat} (hle : depth ≤ i) (hlt : i < states.length) : ∃ later after before earlier,
    sim' :: trail = later ++ after :: before :: earlier ∧ ReducesTo t before after ∧
      after.states.size ≤ i ∧
      ∀ sim ∈ before :: earlier, states.take (i + 1) <+: sim.bottomUp := by
  obtain ⟨later, after, before, earlier, htrail, hrest⟩ := h.popped i hle hlt
  exact ⟨sim' :: later, after, before, earlier, by rw [htrail]; rfl, hrest⟩

/-- Entering a state does not make the stack any less. -/
theorem enter (h : LowestDepth t states (sim :: earlier) sim.lowestDepth) (state : StateId) :
    LowestDepth t states (sim.enter state :: sim :: earlier) (sim.enter state).lowestDepth := by
  obtain ⟨hsize, -⟩ := List.forall_mem_cons.mp h.le_size
  obtain ⟨hkept, -⟩ := List.forall_mem_cons.mp h.kept
  obtain ⟨least, hmem, hleast⟩ := h.attained
  constructor
  case pos => exact h.pos
  case le_length => exact h.le_length
  case le_size =>
    refine List.forall_mem_cons.mpr ⟨?_, h.le_size⟩
    rw [Simulator.enter, Stack.size_push]
    exact Nat.le_succ_of_le hsize
  case attained => exact ⟨least, List.mem_cons_of_mem _ hmem, hleast⟩
  case kept =>
    refine List.forall_mem_cons.mpr ⟨?_, h.kept⟩
    rw [bottomUp_enter]
    exact hkept.trans (List.prefix_append _ _)
  case popped => exact fun i hle hlt => h.popped_cons _ hle hlt

/-- A reduction makes the least depth what is left, if this is less. Then it has dropped the states
in between. -/
theorem reduce (h : LowestDepth t states (sim :: earlier) sim.lowestDepth)
    (hreduces : ReducesTo t sim sim') :
    LowestDepth t states (sim' :: sim :: earlier) sim'.lowestDepth := by
  obtain ⟨rule, info, hrule, hlength, rfl⟩ := hreduces
  generalize hdepth : sim.states.size - info.length = depth
  have hless : depth ≤ sim.states.size := by omega
  have hsize : (sim.dropTo depth).states.size = depth := by
    rw [dropTo, Stack.size_truncate, Nat.min_eq_left hless]
  have hlowest : (sim.dropTo depth).lowestDepth = min sim.lowestDepth depth := rfl
  have hshorter : states.take (min sim.lowestDepth depth) <+: states.take sim.lowestDepth :=
    List.take_prefix_take_left (Nat.min_le_left _ _)
  rw [hlowest]
  constructor
  case pos =>
    intro hne
    have hpos := h.pos hne
    omega
  case le_length => exact Nat.le_trans (Nat.min_le_left _ _) h.le_length
  case le_size =>
    refine List.forall_mem_cons.mpr ⟨?_, fun m hm => ?_⟩
    · rw [hsize]
      exact Nat.min_le_right _ _
    · exact Nat.le_trans (Nat.min_le_left _ _) (h.le_size m hm)
  case attained =>
    rcases Nat.le_total sim.lowestDepth depth with hle | hle
    · obtain ⟨least, hmem, hleast⟩ := h.attained
      exact ⟨least, List.mem_cons_of_mem _ hmem, by rw [hleast, Nat.min_eq_left hle]⟩
    · exact ⟨_, List.mem_cons_self, by rw [hsize, Nat.min_eq_right hle]⟩
  case kept =>
    refine List.forall_mem_cons.mpr ⟨?_, fun m hm => hshorter.trans (h.kept m hm)⟩
    rw [bottomUp_dropTo, List.prefix_take_iff, List.length_take]
    refine ⟨hshorter.trans (h.kept sim List.mem_cons_self), ?_⟩
    omega
  case popped =>
    intro i hle hlt
    by_cases hold : sim.lowestDepth ≤ i
    · exact h.popped_cons _ hold hlt
    -- Up to this reduction all states given were there below the least depth.
    · refine ⟨[], _, sim, earlier, rfl, ⟨rule, info, hrule, hlength, by rw [hdepth]⟩, ?_, ?_⟩
      · rw [hsize]
        omega
      · intro m hm
        refine List.IsPrefix.trans ?_ (h.kept m hm)
        exact List.take_prefix_take_left (by omega)

end LowestDepth

/-- At every moment of a simulation, the simulator keeps the least depth of its trail. -/
theorem Trail.lowestDepth (h : Trail t base stream trail turn s) :
    ∃ sim earlier, trail = sim :: earlier ∧
      LowestDepth t base.toList (sim :: earlier) sim.lowestDepth := by
  induction h with
  | start => exact ⟨_, _, rfl, .start t base⟩
  | read _ _ _ ih => exact ih
  | shift _ _ _ ih =>
    obtain ⟨sim, earlier, htrail, hlowest⟩ := ih
    cases htrail
    exact ⟨_, _, rfl, hlowest.enter _⟩
  | drop _ _ _ hrule hlength ih =>
    obtain ⟨sim, earlier, htrail, hlowest⟩ := ih
    cases htrail
    exact ⟨_, _, rfl, hlowest.reduce ⟨_, _, hrule, hlength, rfl⟩⟩
  | enter _ _ _ ih =>
    obtain ⟨sim, earlier, htrail, hlowest⟩ := ih
    cases htrail
    exact ⟨_, _, rfl, hlowest.enter _⟩

/-! ## Counting what has been dropped -/

/-- How many of so many states given have been dropped along a trail. -/
def dropCount (given : Nat) (trail : List Simulator) : Nat :=
  (List.range given).countP fun i => trail.any fun sim => decide (sim.states.size ≤ i)

/-- How many numbers up to a bound are not below another one. -/
theorem countP_range_le (depth n : Nat) :
    (List.range n).countP (fun i => decide (depth ≤ i)) = n - depth := by
  induction n with
  | zero => exact (Nat.zero_sub depth).symm
  | succ n ih =>
    rw [List.range_succ, List.countP_append, ih, List.countP_singleton]
    split
    · rename_i hle
      have := of_decide_eq_true hle
      omega
    · rename_i hle
      rw [decide_eq_true_eq] at hle
      omega

/-- The states given that have not been dropped are those below the least depth. -/
theorem LowestDepth.dropCount_add {depth : Nat} (h : LowestDepth t states trail depth) :
    dropCount states.length trail + depth = states.length := by
  have hsame : ∀ i, (trail.any fun sim => decide (sim.states.size ≤ i)) = decide (depth ≤ i) := by
    intro i
    rw [Bool.eq_iff_iff, List.any_eq_true, decide_eq_true_eq]
    constructor
    · rintro ⟨sim, hmem, hsize⟩
      exact Nat.le_trans (h.le_size sim hmem) (of_decide_eq_true hsize)
    · intro hle
      obtain ⟨least, hmem, hleast⟩ := h.attained
      exact ⟨least, hmem, decide_eq_true (hleast ▸ hle)⟩
  have hle := h.le_length
  rw [dropCount, funext hsame, countP_range_le]
  omega

end Simulation

end ShiftReduce
