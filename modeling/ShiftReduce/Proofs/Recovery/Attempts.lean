import ShiftReduce.Parser.Recovery
import ShiftReduce.Proofs.Parser.Fields
import ShiftReduce.Proofs.Recovery.Prescription
import ShiftReduce.Proofs.Simulation

/-!
# Attempts at repairs

An attempt explores proposals in order: it makes the first feasible one, or it
fails and leaves the stack, the pending tokens and the repairs as they were, or
a simulation meets a fault of the scanner.

* `simulate_spec`: a simulation decides whether a configuration can go on.
* `Explores`, with `Explores.orElse` for attempts that follow each other.
* `insertMissing_spec`, `replaceMisspelled_spec` and `deleteUnexpected_spec`: the
  strategies that edit the offending token.
-/

namespace ShiftReduce.Recovery

open ShiftReduce.Configuration

variable {σ V : Type} {p : Parser σ V} {fuel w : Nat} {c₀ c c' : Configuration σ V}
  {input tail : Stream' (Symbol V)} {x token : Symbol V} {P : Proposal V} {i : Impasse V}
  {Ps Qs : List (Proposal V)} {a a' : Attempt σ V} {strategy : Strategy} {state : StateId}
  {ids : List SymbolId} {notice : Symbol V → Notice V}

/-! ## Configurations during an attempt -/

/-- A configuration faces some tokens, of which the first is buffered, and is for the
rest as another one was. No less is buffered than there. -/
structure Faces (c₀ : Configuration σ V) (input : Stream' (Symbol V)) (c : Configuration σ V) :
    Prop where
  stack : c.stack = c₀.stack
  pending : c.stream.pending = input
  buffered : c.stream.buffered ≠ []
  grown : c₀.stream.buffered.length ≤ c.stream.buffered.length
  buffering : c.stream.buffering = true
  window : c.stream.window = c₀.stream.window
  repairs : c.repairs = c₀.repairs
  tokensShifted : c.stats.tokensShifted = c₀.stats.tokensShifted

/-- A configuration has become what a proposal says. -/
structure Commits (c₀ : Configuration σ V) (P : Proposal V) (c : Configuration σ V) : Prop where
  stack : c.stack.topDown = P.stack
  pending : c.stream.pending = P.input
  window : c.stream.window = c₀.stream.window
  repairs : c.repairs = c₀.repairs ++ [P.notice]
  tokensShifted : c.stats.tokensShifted = c₀.stats.tokensShifted

namespace Faces

theorem trans (h : Faces c₀ input c) (h' : Faces c tail c') : Faces c₀ tail c' :=
  ⟨h'.stack.trans h.stack, h'.pending, h'.buffered, Nat.le_trans h.grown h'.grown, h'.buffering,
    h'.window.trans h.window, h'.repairs.trans h.repairs, h'.tokensShifted.trans h.tokensShifted⟩

/-- What a configuration faces, seen from itself. -/
theorem self (h : Faces c₀ input c) : Faces c input c :=
  ⟨rfl, h.pending, h.buffered, Nat.le_refl _, h.buffering, rfl, rfl, rfl⟩

theorem commits (h : Faces c₀ input c) (h' : Commits c P c') : Commits c₀ P c' :=
  ⟨h'.stack, h'.pending, h'.window.trans h.window, h.repairs ▸ h'.repairs,
    h'.tokensShifted.trans h.tokensShifted⟩

/-- The first of the tokens is the first one buffered. -/
theorem exists_buffered (h : Faces c₀ (Stream'.cons x tail) c) :
    ∃ rest, c.stream.buffered = x :: rest ∧ rest ++ₛ c.stream.scanner.yields = tail := by
  obtain ⟨y, rest, hbuf⟩ := List.exists_cons_of_ne_nil h.buffered
  have hpending := h.pending
  rw [TokenStream.pending_of_buffered hbuf] at hpending
  obtain ⟨rfl, htail⟩ := Stream'.cons_injective2 hpending
  exact ⟨rest, hbuf, htail⟩

theorem traced (h : Faces c₀ input c) (p : Parser σ V) (event : TraceEvent) :
    Faces c₀ input (c.trace p event) :=
  ⟨by rw [trace_stack, h.stack], by rw [trace_stream, h.pending],
    by rw [trace_stream]; exact h.buffered, by rw [trace_stream]; exact h.grown,
    by rw [trace_stream, h.buffering],
    by rw [trace_stream, h.window], by rw [repairs_trace, h.repairs],
    by rw [trace_stats, h.tokensShifted]⟩

/-- Another head. -/
theorem modified (h : Faces c₀ (Stream'.cons x tail) c) (f : Symbol V → Symbol V) :
    Faces c₀ (Stream'.cons (f x) tail) (modifyHead f c) := by
  obtain ⟨rest, hbuf, htail⟩ := h.exists_buffered
  obtain ⟨buffer, hmodify, hbuffer⟩ := TokenStream.modify_front f hbuf
  have hc : modifyHead f c = { c with stream := { c.stream with buffer } } := by
    rw [modifyHead, hmodify]
  have hlist : (modifyHead f c).stream.buffered = f x :: rest := by
    rw [hc]
    exact hbuffer
  have hgrown := h.grown
  rw [hbuf] at hgrown
  rw [hc] at hlist ⊢
  refine ⟨h.stack, ?_, ?_, ?_, h.buffering, h.window, h.repairs, h.tokensShifted⟩
  · rw [← htail]
    exact TokenStream.pending_of_buffered hlist
  · rw [hlist]
    exact List.cons_ne_nil _ _
  · rw [hlist]
    exact hgrown

/-- A token more in front. -/
theorem inserted {stream : TokenStream V} (h : c.stream.insert 0 x = .ok stream)
    (hmode : c.stream.buffering = true) :
    Faces c (Stream'.cons x c.stream.pending) { c with stream } ∧
      stream.buffered.length = c.stream.buffered.length + 1 := by
  obtain ⟨buffer, read, rfl, hbuffer⟩ := TokenStream.insert_front h
  have hlist : { c.stream with buffer, read }.buffered = x :: c.stream.buffered := hbuffer
  refine ⟨⟨rfl, TokenStream.pending_of_buffered hlist, ?_, ?_, hmode, rfl, rfl, rfl⟩, ?_⟩
  · rw [hlist]
    exact List.cons_ne_nil _ _
  · rw [hlist]
    exact Nat.le_succ _
  · rw [hlist, List.length_cons]

/-- The first token is what can be taken out. -/
theorem removed {stream : TokenStream V} {y : Symbol V} (h : Faces c₀ (Stream'.cons x tail) c)
    (hremove : c.stream.remove 0 = .ok (y, stream)) :
    y = x ∧ stream.pending = tail ∧ stream.buffering = true ∧
      stream.window = c₀.stream.window ∧
      c.stream.buffered.length = stream.buffered.length + 1 := by
  obtain ⟨rest, hbuf, htail⟩ := h.exists_buffered
  obtain ⟨buffer, read, rfl, hbuffer⟩ := TokenStream.remove_front hremove
  rw [hbuf] at hbuffer ⊢
  obtain ⟨rfl, rfl⟩ := List.cons.inj hbuffer
  exact ⟨rfl, htail, h.buffering, h.window, rfl⟩

/-- What is told about the first buffered token is told about the first token. -/
theorem notifyHead_eq (h : Faces c₀ (Stream'.cons x tail) c) (notice : Symbol V → Notice V) :
    notifyHead notice c = c.notify (notice x) := by
  obtain ⟨rest, hbuf, -⟩ := h.exists_buffered
  rw [notifyHead, TokenStream.peek?_zero, hbuf]
  rfl

/-- The stack and the tokens of a proposal, with its notice. -/
theorem commits_notify (h : Faces c₀ P.input c) (hstack : c₀.stack.topDown = P.stack)
    (hrepair : P.notice.isRepair = true) : Commits c₀ P (c.notify P.notice) := by
  refine ⟨h.stack ▸ hstack, h.pending, h.window, ?_, h.tokensShifted⟩
  rw [repairs_notify, if_pos hrepair, h.repairs]

end Faces

/-! ## Simulations of the parse -/

/-- A simulation changes nothing but what is buffered. If it decides, then there is
a token buffered, and it has decided whether the automaton can go on. -/
theorem simulate_spec {sim : Simulation V} (h : c.simulate p fuel = .ok (sim, c'))
    (hne : c.stack.topDown ≠ []) :
    c'.repairs = c.repairs ∧ ∀ ok, sim.succeeded = .ok ok →
      Faces c c.stream.pending c' ∧
        (Automaton.Feasible p.tables (max c.stream.window 1) c.stack.column c.stream.terminals ↔
          ok = true) := by
  obtain ⟨stream, hrewind, h⟩ := bind_eq_ok.mp h
  obtain ⟨hmode, rfl⟩ := TokenStream.rewind_eq_ok.mp (liftM_eq_ok.mp hrewind)
  obtain ⟨run, hrun, h⟩ := bind_eq_ok.mp h
  cases h
  have hbase : c.stack.states.toList.reverse = c.stack.column :=
    (c.stack.column_eq_reverse_states).symm
  have hcolumn : c.stack.column ≠ [] := by
    rw [ParseStack.column]
    simpa using hne
  have hfollows := Simulation.run_follows hrun (Nat.zero_le _) (by
    intro hnil
    rw [← hbase, hnil] at hcolumn
    exact hcolumn rfl)
  refine ⟨by rw [repairs_notifyLexical]; rfl, ?_⟩
  intro ok hok
  obtain ⟨rs, hmoves, hbuffered, -⟩ := hfollows.decides ok hok
  rw [Simulator.column_ofStates, hbase] at hmoves
  refine ⟨⟨rfl, hfollows.pending, ?_, hfollows.grows.length_le, hfollows.buffering,
    hfollows.window, ?_, rfl⟩, hmoves.feasible_iff⟩
  -- A simulation that decides has looked at one token at least.
  · intro hnil
    have hlen := congrArg List.length hnil
    simp only [notifyLexical_stream, count_stream, List.length_nil] at hlen hbuffered
    omega
  · rw [repairs_notifyLexical]
    rfl

/-- What a simulation decides about a configuration, it decides about the proposal
to go on from there. -/
theorem feasible_iff (hstack : c.stack.topDown = P.stack) (hpending : c.stream.pending = P.input) :
    Automaton.Feasible p.tables w c.stack.column c.stream.terminals ↔ P.Feasible p.tables w := by
  rw [Proposal.Feasible, ← hstack, ← hpending]
  rfl

/-! ## Exploring proposals -/

/-- An attempt has gone through proposals in order. A failure leaves something to go
on from. -/
inductive Explores (t : PackedTables) (w : Nat) (c₀ : Configuration σ V)
    (left : Configuration σ V → Prop) (Ps : List (Proposal V)) : Attempt σ V → Prop
  | settled {P : Proposal V} {c : Configuration σ V} : IsFirst (Proposal.Feasible t w) Ps P →
      Commits c₀ P c → Explores t w c₀ left Ps (.settled (.repaired c))
  | failed {c : Configuration σ V} : (∀ P ∈ Ps, ¬P.Feasible t w) → left c →
      Explores t w c₀ left Ps (.failed c)
  | fault {fault : ScanError} {c : Configuration σ V} : c.repairs = c₀.repairs →
      Explores t w c₀ left Ps (.settled (.aborted (.scanner fault) c))

namespace Explores

variable {t : PackedTables} {left left' : Configuration σ V → Prop}

/-- The attempt may be seen from an earlier configuration. -/
theorem of_faces (h : Explores t w c left Ps a) (hc : Faces c₀ input c)
    (hleft : ∀ c', left c' → left' c') : Explores t w c₀ left' Ps a := by
  cases h with
  | settled hfirst hcommits => exact .settled hfirst (hc.commits hcommits)
  | failed hnone hl => exact .failed hnone (hleft _ hl)
  | fault hrepairs => exact .fault (hrepairs.trans hc.repairs)

/-- Proposals that are not feasible may stand in front. -/
theorem skip (hnone : ∀ P ∈ Ps, ¬P.Feasible t w) (h : Explores t w c₀ left Qs a) :
    Explores t w c₀ left (Ps ++ Qs) a := by
  cases h with
  | settled hfirst hcommits => exact .settled (hfirst.append_right hnone) hcommits
  | failed hnone' hl =>
    refine .failed ?_ hl
    intro P hP
    rcases List.mem_append.mp hP with hP | hP
    · exact hnone P hP
    · exact hnone' P hP
  | fault hrepairs => exact .fault hrepairs

/-- A second attempt goes through its proposals after those of the first. -/
theorem orElse {second : Configuration σ V → Fueled (Attempt σ V)}
    (hfirst : Explores t w c₀ left Ps a) (h : a.orElse second = .ok a')
    (hsecond : ∀ c, left c → ∀ a', second c = .ok a' → Explores t w c₀ left' Qs a') :
    Explores t w c₀ left' (Ps ++ Qs) a' := by
  cases hfirst with
  | settled hP hcommits =>
    cases h
    exact .settled (hP.append_left Qs) hcommits
  | failed hnone hl => exact (hsecond _ hl _ h).skip hnone
  | fault hrepairs =>
    cases h
    exact .fault hrepairs

end Explores

/-- Trying ids goes through the proposals that give them to the first token. A failure
leaves it with one of them. -/
theorem tryIds_spec (h : tryIds p fuel strategy state notice ids c = .ok a)
    (hc : Faces c (Stream'.cons x tail) c) (hne : c.stack.topDown ≠ [])
    (hnotice : ∀ y, (notice y).isRepair = true) :
    Explores p.tables (max c.stream.window 1) c
      (fun c' => ∃ id, Faces c (Stream'.cons { x with id } tail) c')
      (ids.map fun id => ⟨c.stack.topDown, Stream'.cons { x with id } tail, notice { x with id }⟩)
      a := by
  -- By induction on the ids. An id that fails stays with the token until the next one
  -- takes its place, so the token is general.
  induction ids generalizing c x with
  | nil =>
    cases h
    exact .failed (by simp) ⟨x.id, hc⟩
  | cons id ids ih =>
    obtain ⟨⟨sim, c₁⟩, hsim, h⟩ := bind_eq_ok.mp h
    have hmodified := hc.modified ({ · with id })
    obtain ⟨hrepairs, hdecides⟩ := simulate_spec hsim (hmodified.stack ▸ hne)
    simp only at h
    split at h
    · rename_i hok
      cases h
      obtain ⟨hfaces, hfeasible⟩ := hdecides true hok
      rw [hmodified.pending] at hfaces
      have hstack : (modifyHead ({ · with id }) c).stack.topDown = c.stack.topDown := by
        rw [hmodified.stack]
      rw [feasible_iff (P := ⟨c.stack.topDown, _, notice { x with id }⟩) hstack hmodified.pending,
        hmodified.window] at hfeasible
      apply Explores.settled (.head (hfeasible.mpr rfl))
      have htraced := (hmodified.trans hfaces).traced p
        (.recovery strategy state true 0 (c₁.stack.depth - sim.simulator.lowestDepth))
      rw [traceSuccess, htraced.notifyHead_eq]
      exact htraced.commits_notify rfl (hnotice _)
    · rename_i hok
      obtain ⟨hfaces, hfeasible⟩ := hdecides false hok
      rw [hmodified.pending] at hfaces
      have hall := hmodified.trans hfaces
      have hrest := ih h hall.self (hall.stack ▸ hne)
      rw [hall.stack, hall.window] at hrest
      rw [feasible_iff (P := ⟨c.stack.topDown, _, notice { x with id }⟩)
        (by rw [hmodified.stack]) hmodified.pending, hmodified.window] at hfeasible
      -- The proposal with this id is not feasible, and the others come after it.
      have hskip : ∀ P ∈ [(⟨c.stack.topDown, Stream'.cons { x with id } tail,
          notice { x with id }⟩ : Proposal V)], ¬P.Feasible p.tables (max c.stream.window 1) :=
        List.forall_mem_singleton.mpr fun hP => Bool.false_ne_true (hfeasible.mp hP)
      refine (hrest.of_faces hall ?_).skip hskip
      intro c' hleft
      obtain ⟨id', hc'⟩ := hleft
      exact ⟨id', hall.trans hc'⟩
    · cases h
      exact .fault (hrepairs.trans hmodified.repairs)

/-! ## Edits of the offending token -/

theorem insertMissing_spec (h : insertMissing p fuel state ids c = .ok a)
    (hc : Faces c i.input c) (hstack : c.stack.topDown = i.stack) :
    Explores p.tables (max c.stream.window 1) c (Faces c i.input) (ids.map i.insertion) a := by
  unfold insertMissing at h
  split at h
  · cases h
    exact .failed (by simp) hc
  · rename_i first rest
    have htop : c.stack.topSymbol = .ok i.top.symbol := by
      rw [ParseStack.topSymbol_eq_ok, hstack]
      exact ⟨i.top, rfl, rfl⟩
    rw [htop] at h
    simp only [liftM_ok, ok_bind] at h
    obtain ⟨stream, hinsert, h⟩ := bind_eq_ok.mp h
    obtain ⟨hinserted, hlonger⟩ := Faces.inserted (liftM_eq_ok.mp hinsert) hc.buffering
    rw [hc.pending] at hinserted
    obtain ⟨tried, htry, h⟩ := bind_eq_ok.mp h
    have hexplores := tryIds_spec htry hinserted.self (by simp [hstack, Impasse.stack])
      (fun _ => rfl)
    have hproposals : ((first :: rest).map fun id => (⟨c.stack.topDown, Stream'.cons
        { Symbol.empty first i.top.symbol.stop i.top.symbol.stop with id } i.input,
        .inserted { Symbol.empty first i.top.symbol.stop i.top.symbol.stop with id }⟩ :
        Proposal V)) = (first :: rest).map i.insertion := by
      rw [hstack]
      rfl
    rw [hinserted.window, hproposals] at hexplores
    rw [← List.append_nil ((first :: rest).map i.insertion)]
    apply (hexplores.of_faces hinserted fun c' hleft => hleft).orElse h
    intro c' hleft a' ha'
    -- All of them have failed, so the token that was inserted goes out again.
    obtain ⟨id, hc'⟩ := hleft
    obtain ⟨⟨y, stream'⟩, hremove, ha'⟩ := bind_eq_ok.mp ha'
    cases ha'
    obtain ⟨-, hpending, hmode, hwindow, hshorter⟩ := hc'.removed (liftM_eq_ok.mp hremove)
    have hgrown := hc'.grown
    have hlong : c.stream.buffered.length ≤ stream'.buffered.length := by
      rw [hlonger, hshorter] at hgrown
      omega
    have hback : Faces c i.input { c' with stream := stream' } :=
      ⟨hc'.stack, hpending, List.ne_nil_of_length_pos
        (Nat.lt_of_lt_of_le (List.length_pos_iff.mpr hc.buffered) hlong), hlong, hmode,
        hwindow.trans hinserted.window, hc'.repairs, hc'.tokensShifted⟩
    exact .failed (by simp) (hback.traced p _)

theorem replaceMisspelled_spec (h : replaceMisspelled p fuel state ids c = .ok a)
    (hc : Faces c i.input c) (hstack : c.stack.topDown = i.stack) (htoken : i.token.id ∉ ids) :
    Explores p.tables (max c.stream.window 1) c (Faces c i.input) (ids.map i.replacement) a := by
  obtain ⟨rest, hbuf, -⟩ := hc.exists_buffered
  have hpeek : c.stream.peek? 0 = some i.token := by rw [TokenStream.peek?_zero, hbuf]; rfl
  unfold replaceMisspelled at h
  rw [hpeek] at h
  cases ids with
  | nil =>
    cases h
    exact .failed (by simp) hc
  | cons first others =>
    obtain ⟨tried, htry, h⟩ := bind_eq_ok.mp h
    have hothers : (first :: others).filter (· != i.token.id) = first :: others := by
      rw [List.filter_eq_self]
      intro id hid
      rw [bne_iff_ne]
      rintro rfl
      exact htoken hid
    rw [hothers] at htry
    have hexplores := tryIds_spec htry hc (by simp [hstack, Impasse.stack]) (fun _ => rfl)
    have hproposals : ((first :: others).map fun id => (⟨c.stack.topDown,
        Stream'.cons { i.token with id } i.rest, .replaced { i.token with id }⟩ : Proposal V)) =
        (first :: others).map i.replacement := by
      rw [hstack]
      rfl
    rw [hproposals] at hexplores
    rw [← List.append_nil ((first :: others).map i.replacement)]
    apply hexplores.orElse h
    intro c' hleft a' ha'
    -- All of them have failed, so the token gets its own id back.
    obtain ⟨id, hc'⟩ := hleft
    cases ha'
    exact .failed (by simp) ((hc'.modified ({ · with id := i.token.id })).traced p _)

theorem deleteUnexpected_spec (h : deleteUnexpected p fuel state c = .ok a)
    (hc : Faces c i.input c) (hstack : c.stack.topDown = i.stack) :
    Explores p.tables (max c.stream.window 1) c (Faces c i.input) [i.deletion] a := by
  obtain ⟨rewound, hrewind, h⟩ := bind_eq_ok.mp h
  obtain ⟨-, rfl⟩ := TokenStream.rewind_eq_ok.mp (liftM_eq_ok.mp hrewind)
  obtain ⟨⟨token, stream⟩, hremove, h⟩ := bind_eq_ok.mp h
  have hrewound : Faces c i.input { c with stream := { c.stream with read := 0 } } :=
    ⟨rfl, hc.pending, hc.buffered, hc.grown, hc.buffering, rfl, rfl, rfl⟩
  obtain ⟨rfl, hpending, hmode, hwindow, hshorter⟩ := hrewound.removed (liftM_eq_ok.mp hremove)
  obtain ⟨⟨sim, c₁⟩, hsim, h⟩ := bind_eq_ok.mp h
  obtain ⟨hrepairs, hdecides⟩ := simulate_spec hsim (by simp [hstack, Impasse.stack])
  have hfeasible := feasible_iff (p := p) (c := { c with stream }) (P := i.deletion)
    (w := max c.stream.window 1) hstack hpending
  simp only at h
  split at h
  · rename_i hok
    cases h
    obtain ⟨hfaces, hdecided⟩ := hdecides true hok
    rw [hwindow, hfeasible] at hdecided
    apply Explores.settled (.head (hdecided.mpr rfl))
    have htraced := hfaces.traced p
      (.recovery .deletion state true 0 (c₁.stack.depth - sim.simulator.lowestDepth))
    rw [hpending] at htraced
    have hcommits := htraced.commits_notify (P := i.deletion) hstack rfl
    exact ⟨hcommits.stack, hcommits.pending, hcommits.window.trans hwindow, hcommits.repairs,
      hcommits.tokensShifted⟩
  -- The simulation has failed, so the token goes in again.
  · rename_i hok
    obtain ⟨stream', hinsert, h⟩ := bind_eq_ok.mp h
    cases h
    obtain ⟨hfaces, hdecided⟩ := hdecides false hok
    rw [hwindow, hfeasible] at hdecided
    obtain ⟨hinserted, hlonger⟩ := Faces.inserted (liftM_eq_ok.mp hinsert) hfaces.buffering
    rw [hfaces.pending, hpending] at hinserted
    have hgrown := hfaces.grown
    refine .failed (List.forall_mem_singleton.mpr fun hP => Bool.false_ne_true (hdecided.mp hP))
      (Faces.traced ?_ p _)
    have hall := hfaces.trans hinserted
    refine ⟨hall.stack, hall.pending, hall.buffered, ?_, hall.buffering,
      hall.window.trans hwindow, hall.repairs, hall.tokensShifted⟩
    show c.stream.buffered.length ≤ stream'.buffered.length
    rw [hlonger, show c.stream.buffered.length = stream.buffered.length + 1 from hshorter]
    exact Nat.succ_le_succ hgrown
  · cases h
    exact .fault hrepairs

end ShiftReduce.Recovery
