import ShiftReduce.Proofs.Parser.Log
import ShiftReduce.Proofs.Recovery.Window

/-!
# Traces that can be replayed

Each trace says of a move what a bare stack of states has to know of it: a shift has the state that
is entered, a reduction the length of its right-hand side and the symbol that it produces, and the
end of a strategy the number of entries that were taken off. So the moves can be made again on
states alone, without tokens, values or actions.

* `TraceEvent.replay` and `TraceEvent.replayAll`: a move and a list of moves on a bare stack.
* `Configuration.Replays`: the moves that have been traced lead to the states of the stack.
* `Still`: nothing has been traced in between, and the states are the same.
* `Recovery.recover_replays`: a repair keeps this. While an error phrase is widened it does not
  hold, since the entries are taken off before the trace that says so.
-/

namespace ShiftReduce

open ShiftReduce.Configuration

/-- Follows the goto of a symbol from the top of a bare stack. An accepting goto enters no
state. -/
def PackedTables.followGoto (t : PackedTables) (x : SymbolId) :
    List StateId → Option (List StateId)
  | [] => none
  | state :: below =>
    match t.goto state x with
    | .ok (.shift target) => some (target :: state :: below)
    | .ok .accept => some (state :: below)
    | _ => none

namespace TraceEvent

/-- Makes a traced move on a bare stack, the top first. The end of a strategy takes off what was
unwound, and a phrase that has been replaced leaves the error symbol. -/
def replay (t : PackedTables) : TraceEvent → List StateId → Option (List StateId)
  | shift state _, stack => some (state :: stack)
  | reduce _ lhs length, stack => t.followGoto lhs (stack.drop length)
  | accept, stack => some stack
  | recovery .phrase _ true unwound _, stack =>
    t.errorSymbol.bind fun error => t.followGoto error (stack.drop unwound)
  | recovery _ _ _ unwound _, stack => some (stack.drop unwound)

/-- Makes traced moves on a bare stack, from the start state on. -/
def replayAll (t : PackedTables) (events : List TraceEvent) : Option (List StateId) :=
  events.foldlM (fun stack event => event.replay t stack) [startState]

theorem replayAll_concat (t : PackedTables) (events : List TraceEvent) (event : TraceEvent) :
    replayAll t (events ++ [event]) = (replayAll t events).bind (event.replay t) := by
  rw [replayAll, List.foldlM_append]
  exact congrArg _ (funext fun stack => bind_pure _)

end TraceEvent

variable {σ V : Type} {p : Parser σ V} {t : PackedTables} {fuel unwound depth k : Nat}
  {c c' c'' : Configuration σ V} {a a' : Attempt σ V} {r : Repair σ V} {strategy : Strategy}
  {state target : StateId} {notice : Symbol V → Notice V} {ids : List SymbolId}
  {token : Symbol V} {error : SymbolId} {s s' : ParseStack V} {event : TraceEvent}

theorem ParseStack.column_modifyTopSymbol {f : Symbol V → Symbol V}
    (h : s.modifyTopSymbol f = .ok s') : s'.column = s.column := by
  obtain ⟨entry, htop, -⟩ := bind_eq_ok.mp h
  obtain ⟨below, hbelow⟩ := List.head?_eq_some_iff.mp (top_eq_ok.mp htop)
  rw [column, modifyTopSymbol_eq_ok h hbelow, column, hbelow]
  rfl

/-! ## Moves and stacks -/

namespace Configuration

def moves (c : Configuration σ V) : List TraceEvent := Notice.traces c.notices.toList

theorem moves_trace (htrace : p.settings.trace = true) (c : Configuration σ V)
    (event : TraceEvent) : (c.trace p event).moves = c.moves ++ [event] := by
  rw [moves, notices_trace, Notice.traces_append, Parser.traces_traced htrace, moves]

/-- The moves that have been traced lead to the states of the stack. -/
def Replays (p : Parser σ V) (c : Configuration σ V) : Prop :=
  TraceEvent.replayAll p.tables c.moves = some c.stack.column

/-- A move is traced, and it leads to the states that are on the stack then. -/
theorem Replays.move (h : c.Replays p) (hmoves : c'.moves = c.moves ++ [event])
    (hreplay : event.replay p.tables c.stack.column = some c'.stack.column) : c'.Replays p := by
  rw [Replays, hmoves, TraceEvent.replayAll_concat, h]
  exact hreplay

end Configuration

/-- Nothing has been traced in between, and the states of the stack are the same. -/
structure Still (c c' : Configuration σ V) : Prop where
  column_eq : c'.stack.column = c.stack.column
  moves_eq : c'.moves = c.moves

namespace Still

theorem trans (h : Still c c') (h' : Still c' c'') : Still c c'' :=
  ⟨h'.column_eq.trans h.column_eq, h'.moves_eq.trans h.moves_eq⟩

/-- Reports are no moves. -/
theorem of_adds (h : Adds (fun n => n.isTrace = false) c c')
    (hcolumn : c'.stack.column = c.stack.column) : Still c c' := by
  obtain ⟨told, htold, hreports⟩ := h
  refine ⟨hcolumn, ?_⟩
  rw [moves, htold, Notice.traces_append, Notice.traces_eq_nil hreports, List.append_nil, moves]

theorem notify {n : Notice V} (hn : n.isTrace = false) (c : Configuration σ V) :
    Still c (c.notify n) :=
  .of_adds (.notify c hn) rfl

theorem simulate {sim : Simulation V} (h : c.simulate p fuel = .ok (sim, c')) : Still c c' :=
  .of_adds (.simulate (fun _ => rfl) h) (congrArg _ (Recovery.simulate_stack h))

theorem replays (h : Still c c') (hc : c.Replays p) : c'.Replays p := by
  rw [Replays, h.moves_eq, h.column_eq]
  exact hc

end Still

namespace Recovery

/-! ## Edits of the offending token -/

/-- The end of a strategy that has taken nothing off the stack. -/
theorem replays_edit (htrace : p.settings.trace = true) (hc : c.Replays p)
    (hstrategy : strategy ≠ .phrase) (state : StateId) (succeeded : Bool) (reduced : Nat) :
    (c.trace p (.recovery strategy state succeeded 0 reduced)).Replays p := by
  refine hc.move (moves_trace htrace c _) ?_
  rw [trace_stack]
  cases strategy with
  | phrase => exact absurd rfl hstrategy
  | insertion => rfl
  | replacement => rfl
  | deletion => rfl

theorem still_notifyHead (hnotice : ∀ x, (notice x).isTrace = false) (c : Configuration σ V) :
    Still c (notifyHead notice c) := by
  unfold notifyHead
  split
  · exact .notify (hnotice _) c
  · exact ⟨rfl, rfl⟩

section

variable (htrace : p.settings.trace = true)

include htrace

theorem tryIds_replays (hc : c.Replays p) (hstrategy : strategy ≠ .phrase)
    (hnotice : ∀ x, (notice x).isTrace = false)
    (h : tryIds p fuel strategy state notice ids c = .ok a) :
    a.Ends (Replays p) fun _ _ => True := by
  induction ids generalizing c with
  | nil =>
    cases h
    exact .failed hc
  | cons id ids ih =>
    obtain ⟨⟨sim, c₁⟩, hsim, h⟩ := bind_eq_ok.mp h
    have hc₁ : c₁.Replays p := (Still.simulate hsim).replays hc
    dsimp only at h
    split at h
    · cases h
      have htraced : (traceSuccess p strategy state 0 sim c₁).Replays p :=
        replays_edit htrace hc₁ hstrategy state true _
      exact .settled (.repaired ((still_notifyHead hnotice _).replays htraced))
    · exact ih hc₁ h
    · cases h
      exact .settled (.fault trivial)

theorem insertMissing_replays (hc : c.Replays p)
    (h : insertMissing p fuel state ids c = .ok a) : a.Ends (Replays p) fun _ _ => True := by
  cases ids with
  | nil =>
    cases h
    exact .failed hc
  | cons first rest =>
    obtain ⟨below, -, h⟩ := bind_eq_ok.mp h
    obtain ⟨stream, -, h⟩ := bind_eq_ok.mp h
    obtain ⟨tried, htried, h⟩ := bind_eq_ok.mp h
    have hinserted : ({ c with stream } : Configuration σ V).Replays p := hc
    refine (tryIds_replays htrace hinserted (by decide) (fun _ => rfl) htried).orElse h ?_
    intro c₁ hc₁ h
    obtain ⟨⟨removed, stream'⟩, -, h⟩ := bind_eq_ok.mp h
    cases h
    have hremoved : ({ c₁ with stream := stream' } : Configuration σ V).Replays p := hc₁
    exact .failed (replays_edit htrace hremoved (by decide) state false 0)

theorem replaceMisspelled_replays (hc : c.Replays p)
    (h : replaceMisspelled p fuel state ids c = .ok a) :
    a.Ends (Replays p) fun _ _ => True := by
  unfold replaceMisspelled at h
  split at h
  · cases h
    exact .failed hc
  · cases h
    exact .failed hc
  · rename_i token _ _
    obtain ⟨tried, htried, h⟩ := bind_eq_ok.mp h
    refine (tryIds_replays htrace hc (by decide) (fun _ => rfl) htried).orElse h ?_
    intro c₁ hc₁ h
    cases h
    have hrestored : (modifyHead ({ · with id := token.id }) c₁).Replays p := hc₁
    exact .failed (replays_edit htrace hrestored (by decide) state false 0)

theorem deleteUnexpected_replays (hc : c.Replays p)
    (h : deleteUnexpected p fuel state c = .ok a) : a.Ends (Replays p) fun _ _ => True := by
  obtain ⟨stream, -, h⟩ := bind_eq_ok.mp h
  obtain ⟨⟨token, stream'⟩, -, h⟩ := bind_eq_ok.mp h
  obtain ⟨⟨sim, c₁⟩, hsim, h⟩ := bind_eq_ok.mp h
  have hremoved : ({ c with stream := stream' } : Configuration σ V).Replays p := hc
  have hc₁ : c₁.Replays p := (Still.simulate hsim).replays hremoved
  dsimp only at h
  split at h
  · cases h
    have htraced : (traceSuccess p .deletion state 0 sim c₁).Replays p :=
      replays_edit htrace hc₁ (by decide) state true _
    exact .settled (.repaired ((Still.notify rfl _).replays htraced))
  · obtain ⟨stream'', -, h⟩ := bind_eq_ok.mp h
    cases h
    have hrestored : ({ c₁ with stream := stream'' } : Configuration σ V).Replays p := hc₁
    exact .failed (replays_edit htrace hrestored (by decide) state false 0)
  · cases h
    exact .settled (.fault trivial)

/-! ## Error phrases -/

/-- A phrase that has been widened until a simulation has confirmed it: the states are those that
it was pushed with, and only now it is traced. -/
theorem widenPhrase_moves (h : Discards p state unwound fuel c k (.repaired c')) :
    c'.stack.column = c.stack.column ∧
      ∃ reduced, c'.moves = c.moves ++ [.recovery .phrase state true unwound reduced] := by
  generalize hr : Repair.repaired c' = r at h
  induction h with
  | faulty _ _ => cases hr
  | exhausted _ _ _ _ => cases hr
  | @confirmed _ c d sim top hsim _ _ =>
    cases hr
    have hstill := Still.simulate hsim
    have htold : Still (traceSuccess p .phrase state unwound sim d)
        ((traceSuccess p .phrase state unwound sim d).notify (.phraseRemoved top)) :=
      .notify rfl _
    rw [htold.column_eq, htold.moves_eq, traceSuccess, trace_stack, moves_trace htrace,
      hstill.moves_eq]
    exact ⟨hstill.column_eq, _, rfl⟩
  | @next _ _ c d _ _ stream stack _ hsim _ _ _ hmodify _ ih =>
    have hstill := Still.simulate hsim
    have hwidened : Still d { d with stream, stack } :=
      ⟨ParseStack.column_modifyTopSymbol hmodify, rfl⟩
    obtain ⟨hcolumn, hmoves⟩ := ih hr
    rw [(hstill.trans hwidened).column_eq] at hcolumn
    rw [(hstill.trans hwidened).moves_eq] at hmoves
    exact ⟨hcolumn, hmoves⟩

omit htrace in
/-- The states that are left when a phrase has been taken off, and the one entered from them. -/
theorem followGoto_of_errorShift? (h : errorShift? t error s s.depth = .ok (some (depth, target))) :
    t.followGoto error (s.column.drop (s.depth - depth)) =
      some (target :: (s.truncate depth).column) := by
  have hfinds := errorShift?_spec h (Nat.le_refl _)
  rw [Nat.sub_self, List.drop_zero] at hfinds
  rw [ParseStack.column_truncate]
  cases hfinds with
  | @entry e rest _ hcons htarget =>
    have hsplit := (List.takeWhile_append_dropWhile
      (p := fun e => (t.errorTarget? error e).isNone) (l := s.topDown)).symm
    rw [hcons] at hsplit
    generalize s.topDown.takeWhile _ = above at hsplit
    have hdepth : s.depth - (rest.length + 1) = above.length := by
      rw [← length_topDown, hsplit, List.length_append, List.length_cons]
      omega
    have hkept : s.column.drop (s.depth - (rest.length + 1)) = (e :: rest).map Entry.state := by
      rw [hdepth, ParseStack.column, ← List.map_drop, hsplit, List.drop_left]
    rw [hkept, List.map_cons]
    unfold PackedTables.errorTarget? at htarget
    split at htarget
    · rename_i hgoto
      cases htarget
      simp only [PackedTables.followGoto, hgoto]
    · cases htarget

theorem replacePhrase_replays (hc : c.Replays p)
    (h : replacePhrase p fuel state c = .ok (.repaired c')) : c'.Replays p := by
  obtain ⟨k, h⟩ := replacePhrase_eq_ok.mp h
  cases h with
  | @widened below error depth _ target _ _ herror hfound hdone =>
    obtain ⟨hcolumn, reduced, hmoves⟩ := widenPhrase_moves htrace hdone
    refine hc.move hmoves ?_
    rw [hcolumn, beginPhrase, push_stack, ParseStack.column_push]
    show p.tables.errorSymbol.bind _ = _
    rw [herror]
    exact followGoto_of_errorShift? hfound

/-! ## All strategies -/

/-- A repair leaves a stack with the states that the traced moves lead to. -/
theorem recover_replays (hc : c.Replays p)
    (h : recover p fuel token c = .ok (.repaired c')) : c'.Replays p := by
  unfold recover at h
  split at h
  · cases h
  · obtain ⟨state, -, h⟩ := bind_eq_ok.mp h
    obtain ⟨stream, -, h⟩ := bind_eq_ok.mp h
    obtain ⟨ids, -, h⟩ := bind_eq_ok.mp h
    obtain ⟨inserted, hinserted, h⟩ := bind_eq_ok.mp h
    obtain ⟨replaced, hreplaced, h⟩ := bind_eq_ok.mp h
    obtain ⟨deleted, hdeleted, h⟩ := bind_eq_ok.mp h
    obtain ⟨done, hdone, h⟩ := bind_eq_ok.mp h
    have hopened : ({ c with stream } : Configuration σ V).Replays p := hc
    -- The edits leave the stack alone, so its replay is that of the moves told before.
    have hedits := ((insertMissing_replays htrace hopened hinserted).orElse hreplaced
      fun _ hc => replaceMisspelled_replays htrace hc).orElse hdeleted
      fun _ hc => deleteUnexpected_replays htrace hc
    cases done with
    | aborted e c₁ => cases h
    | repaired c₁ =>
      cases h
      show c₁.Replays p
      cases hedits with
      | settled hends =>
        cases hdone
        cases hends with
        | repaired hc₁ => exact hc₁
      | failed hfailed => exact replacePhrase_replays htrace hfailed hdone

end

end Recovery

end ShiftReduce
