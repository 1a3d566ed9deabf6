import ShiftReduce.Proofs.Parser.Faults
import ShiftReduce.Proofs.Parser.Protocol
import ShiftReduce.Proofs.Recovery.Attempts

/-!
# Failed attempts leave no mark

A strategy edits the head of the stream before it knows the outcome, and its simulations read
ahead, as far as they come. If all of them fail, the edit is undone with the cursor wherever the
last one has left it. Then the stack and the pending tokens are what they were. What is left is
that more of the tokens are held back, that the lexical faults in front of these have been told,
that the failure has been traced, and that the simulations have been counted.

* `Accounts`: what has been told and counted between two configurations.
* `simulate_accounts`: a simulation tells the lexical faults among the items that it pulls.
* `insertMissing_unmarked`, `replaceMisspelled_unmarked` and `deleteUnexpected_unmarked`: the
  strategies.
* `failed_attempts_leave_no_mark`: the strategies one after the other, as recovery makes them.
-/

namespace ShiftReduce.Recovery

open ShiftReduce.Configuration

variable {σ V : Type} {p : Parser σ V} {fuel tried more : Nat} {c c' c'' : Configuration σ V}
  {input tail : Stream' (Symbol V)} {x token : Symbol V} {strategy : Strategy} {state : StateId}
  {ids : List SymbolId} {notice : Symbol V → Notice V} {events : List TraceEvent}

/-! ## What is told and counted -/

/-- Between two configurations some simulations have been counted and nothing else. The items
have been told that were pulled from the scanner and are lexical faults, and then some events have
been traced. -/
structure Accounts (p : Parser σ V) (events : List TraceEvent) (tried : Nat)
    (c c' : Configuration σ V) : Prop where
  memory_eq : c'.memory = c.memory
  stats_eq : c'.stats = { c.stats with simulations := c.stats.simulations + tried }
  told : ∃ pulled, c.stream.scanner.items = pulled ++ c'.stream.scanner.items ∧
    c'.notices.toList =
      c.notices.toList ++ (lexicalFaults pulled).map .lexicalError ++ p.traced events

namespace Accounts

/-- Nothing but the stream has changed, and nothing has been pulled. -/
theorem of_stream {stream : TokenStream V} (p : Parser σ V) (c : Configuration σ V)
    (hscanner : stream.scanner = c.stream.scanner) : Accounts p [] 0 c { c with stream } := by
  refine ⟨rfl, rfl, [], ?_, ?_⟩
  · rw [hscanner]
    rfl
  · rw [Parser.traced]
    simp [lexicalFaults]

theorem refl (p : Parser σ V) (c : Configuration σ V) : Accounts p [] 0 c c := of_stream p c rfl

theorem trans (h : Accounts p [] tried c c') (h' : Accounts p events more c' c'') :
    Accounts p events (tried + more) c c'' := by
  obtain ⟨hmemory, hstats, pulled, hitems, htold⟩ := h
  obtain ⟨hmemory', hstats', pulled', hitems', htold'⟩ := h'
  refine ⟨hmemory'.trans hmemory, ?_, pulled ++ pulled', ?_, ?_⟩
  · rw [hstats', hstats, Nat.add_assoc]
  · rw [hitems, hitems', List.append_assoc]
  · have hnone : p.traced [] = [] := by
      unfold Parser.traced
      split <;> rfl
    rw [htold', htold, hnone, lexicalFaults_append, List.map_append, List.append_nil,
      List.append_assoc c.notices.toList]

/-- Another stream with the same scanner. -/
theorem restream {stream : TokenStream V} (h : Accounts p [] tried c c')
    (hscanner : stream.scanner = c'.stream.scanner) :
    Accounts p [] tried c { c' with stream } :=
  h.trans (of_stream p c' hscanner)

theorem traced (h : Accounts p [] tried c c') (event : TraceEvent) :
    Accounts p [event] tried c (c'.trace p event) := by
  have hevent : Accounts p [event] 0 c' (c'.trace p event) := by
    refine ⟨trace_memory _ _ _, trace_stats _ _ _, [], ?_, ?_⟩
    · rw [trace_stream]
      rfl
    · rw [notices_trace]
      simp [lexicalFaults]
  exact h.trans hevent

end Accounts

/-- A simulation that decides has told the lexical faults among the items that it has pulled. -/
theorem simulate_accounts {sim : Simulation V} {ok : Bool} (p : Parser σ V)
    (h : c.simulate p fuel = .ok (sim, c')) (hok : sim.succeeded = .ok ok) :
    Accounts p [] 1 c c' := by
  obtain ⟨stream, hrewind, h⟩ := bind_eq_ok.mp h
  obtain ⟨run, hrun, h⟩ := bind_eq_ok.mp h
  cases h
  -- Seen from a configuration that has told nothing yet, all that is told is told by the run.
  have hquiet : Clean c.stream.scanner.items { c with notices := #[] } :=
    ⟨[], ⟨rfl, rfl⟩, by simp [Harmless]⟩
  have hstands := (hquiet.rewound (liftM_eq_ok.mp hrewind)).runTokens hrun
  rw [hok] at hstands
  obtain ⟨pulled, ⟨hitems, htold⟩, -⟩ := hstands
  rw [lexicalFaults_simulating] at htold
  have hlexical : sim.lexical = ShiftReduce.lexicalFaults pulled := htold
  refine ⟨rfl, rfl, pulled, hitems, ?_⟩
  rw [← hlexical, Parser.traced]
  simp [notifyLexical, count]

/-! ## The strategies -/

/-- A configuration as it was before an attempt that has failed: the same stack, the same pending
tokens, and nothing told or counted but for what an account says. -/
structure Unmarked (p : Parser σ V) (events : List TraceEvent) (tried : Nat)
    (c c' : Configuration σ V) : Prop extends Accounts p events tried c c' where
  stack_eq : c'.stack = c.stack
  pending_eq : c'.stream.pending = c.stream.pending
  buffering_eq : c'.stream.buffering = c.stream.buffering
  window_eq : c'.stream.window = c.stream.window

theorem Faces.unmarked (h : Faces c input c') (hc : Faces c input c)
    (haccounts : Accounts p events tried c c') : Unmarked p events tried c c' :=
  ⟨haccounts, h.stack, h.pending.trans hc.pending.symm, h.buffering.trans hc.buffering.symm,
    h.window⟩

/-- How a strategy traces that it has failed. -/
def failureEvent (strategy : Strategy) (state : StateId) : TraceEvent :=
  .recovery strategy state false 0 0

/-- Each id that has been tried in vain has been simulated. -/
theorem tryIds_accounts (h : tryIds p fuel strategy state notice ids c = .ok (.failed c')) :
    Accounts p [] ids.length c c' := by
  induction ids generalizing c with
  | nil =>
    cases h
    exact .refl p _
  | cons id ids ih =>
    obtain ⟨⟨sim, c₁⟩, hsim, h⟩ := bind_eq_ok.mp h
    dsimp only at h
    split at h
    · cases h
    · rename_i hok
      have hedited : Accounts p [] 0 c (modifyHead ({ · with id }) c) :=
        .of_stream p c (TokenStream.scanner_modify _ _ _)
      have hfirst := hedited.trans (simulate_accounts p hsim hok)
      have hall := hfirst.trans (ih h)
      rwa [Nat.zero_add, Nat.add_comm] at hall
    · cases h

/-- Ids that have been tried in vain leave the head of the stream with one of them. -/
theorem tryIds_faces (h : tryIds p fuel strategy state notice ids c = .ok (.failed c'))
    (hc : Faces c (Stream'.cons x tail) c) (hne : c.stack.topDown ≠ [])
    (hnotice : ∀ y, (notice y).isRepair = true) :
    ∃ id, Faces c (Stream'.cons { x with id } tail) c' := by
  cases tryIds_spec h hc hne hnotice with
  | failed _ hleft => exact hleft

/-- A stack that is not empty, in front of some tokens. -/
theorem exists_impasse_of_ne_nil (hne : c.stack.topDown ≠ []) (token : Symbol V)
    (tail : Stream' (Symbol V)) :
    ∃ i : Impasse V, c.stack.topDown = i.stack ∧ i.input = Stream'.cons token tail := by
  obtain ⟨top, below, htop⟩ := List.exists_cons_of_ne_nil hne
  exact ⟨⟨top, below, token, tail⟩, htop, rfl⟩

theorem insertMissing_unmarked (h : insertMissing p fuel state ids c = .ok (.failed c'))
    (hc : Faces c (Stream'.cons token tail) c) (hne : c.stack.topDown ≠ []) :
    Faces c (Stream'.cons token tail) c' ∧
      Unmarked p (if ids = [] then [] else [failureEvent .insertion state]) ids.length c c' := by
  obtain ⟨i, hstack, hinput⟩ := exists_impasse_of_ne_nil hne token tail
  have hfaces : Faces c (Stream'.cons token tail) c' := by
    rw [← hinput] at hc ⊢
    cases insertMissing_spec h hc hstack with
    | failed _ hleft => exact hleft
  refine ⟨hfaces, hfaces.unmarked hc ?_⟩
  -- Without candidates nothing is inserted, and nothing is told.
  cases ids with
  | nil =>
    cases h
    exact .refl p c
  | cons first rest =>
    obtain ⟨below, -, h⟩ := bind_eq_ok.mp h
    obtain ⟨stream, hinsert, h⟩ := bind_eq_ok.mp h
    obtain ⟨tried, htry, h⟩ := bind_eq_ok.mp h
    cases tried with
    | settled r => cases h
    | failed mid =>
      obtain ⟨⟨y, stream'⟩, hremove, h⟩ := bind_eq_ok.mp h
      cases h
      have hinserted : Accounts p [] 0 c { c with stream } :=
        .of_stream p c (TokenStream.scanner_insert (liftM_eq_ok.mp hinsert))
      have htried := hinserted.trans (tryIds_accounts htry)
      rw [Nat.zero_add] at htried
      rw [if_neg (List.cons_ne_nil _ _)]
      exact (htried.restream (TokenStream.scanner_remove (liftM_eq_ok.mp hremove))).traced _

theorem replaceMisspelled_unmarked (h : replaceMisspelled p fuel state ids c = .ok (.failed c'))
    (hc : Faces c (Stream'.cons token tail) c) (hne : c.stack.topDown ≠ []) :
    Faces c (Stream'.cons token tail) c' ∧
      Unmarked p (if ids = [] then [] else [failureEvent .replacement state])
        (ids.filter (· != token.id)).length c c' := by
  obtain ⟨rest, hbuf, -⟩ := hc.exists_buffered
  have hpeek : c.stream.peek? 0 = some token := by rw [TokenStream.peek?_zero, hbuf]; rfl
  unfold replaceMisspelled at h
  rw [hpeek] at h
  cases ids with
  | nil =>
    cases h
    exact ⟨hc, hc.unmarked hc (.refl p c)⟩
  | cons first others =>
    obtain ⟨tried, htry, h⟩ := bind_eq_ok.mp h
    cases tried with
    | settled r => cases h
    | failed mid =>
      cases h
      -- The token has one of the ids that were tried, and gets its own back.
      obtain ⟨id, hleft⟩ := tryIds_faces htry hc hne fun _ => rfl
      have hback := (hleft.modified ({ · with id := token.id })).traced p
        (failureEvent .replacement state)
      refine ⟨hback, hback.unmarked hc ?_⟩
      rw [if_neg (List.cons_ne_nil _ _)]
      exact ((tryIds_accounts htry).restream (TokenStream.scanner_modify _ _ _)).traced _

theorem deleteUnexpected_unmarked (h : deleteUnexpected p fuel state c = .ok (.failed c'))
    (hc : Faces c (Stream'.cons token tail) c) (hne : c.stack.topDown ≠ []) :
    Faces c (Stream'.cons token tail) c' ∧
      Unmarked p [failureEvent .deletion state] 1 c c' := by
  obtain ⟨i, hstack, hinput⟩ := exists_impasse_of_ne_nil hne token tail
  have hfaces : Faces c (Stream'.cons token tail) c' := by
    rw [← hinput] at hc ⊢
    cases deleteUnexpected_spec h hc hstack with
    | failed _ hleft => exact hleft
  refine ⟨hfaces, hfaces.unmarked hc ?_⟩
  obtain ⟨rewound, hrewind, h⟩ := bind_eq_ok.mp h
  obtain ⟨⟨y, stream⟩, hremove, h⟩ := bind_eq_ok.mp h
  obtain ⟨⟨sim, mid⟩, hsim, h⟩ := bind_eq_ok.mp h
  dsimp only at h
  split at h
  · cases h
  · rename_i hok
    obtain ⟨stream', hinsert, h⟩ := bind_eq_ok.mp h
    cases h
    have hdeleted : Accounts p [] 0 c { c with stream } :=
      .of_stream p c ((TokenStream.scanner_remove (liftM_eq_ok.mp hremove)).trans
        (TokenStream.scanner_rewind (liftM_eq_ok.mp hrewind)))
    have hfailed := hdeleted.trans (simulate_accounts p hsim hok)
    exact (hfailed.restream (TokenStream.scanner_insert (liftM_eq_ok.mp hinsert))).traced _
  · cases h

/-! ## Recovery -/

/-- When recovery begins, the offending token is in front of the pending ones. -/
theorem Opens.faces {c₀ : Configuration σ V} (h : Opens p token c state ids c₀) :
    Faces c₀ (Stream'.cons token c.stream.pending) c₀ ∧ c₀.stack.topDown ≠ [] := by
  obtain ⟨stream, hinsert, rfl⟩ := h.opened_eq
  obtain ⟨hfaces, -⟩ := Faces.inserted (c := { c with stream := c.stream.setBuffering true })
    hinsert rfl
  refine ⟨hfaces.self, ?_⟩
  intro hnil
  have htop := ParseStack.topState_eq_ok.mp h.topState_eq
  rw [ParseStack.column, show c.stack.topDown = [] from hnil] at htop
  cases htop

/-- Wherever recovery begins, each of the strategies that fail leaves the stack and the pending
tokens as they were. It has told the lexical faults that it met while it was reading ahead, and,
if this is traced, that it has failed; and it has counted a simulation for each candidate that it
has tried. Where there are no candidates, insertion and replacement are not tried. -/
theorem failed_attempts_leave_no_mark {c₀ c₁ : Configuration σ V}
    (hopens : Opens p token c state ids c₀)
    (hinserted : insertMissing p fuel state ids c₀ = .ok (.failed c₁)) :
    Unmarked p (if ids = [] then [] else [failureEvent .insertion state]) ids.length c₀ c₁ ∧
      ∀ c₂, replaceMisspelled p fuel state ids c₁ = .ok (.failed c₂) →
        Unmarked p (if ids = [] then [] else [failureEvent .replacement state])
          (ids.filter (· != token.id)).length c₁ c₂ ∧
        ∀ c₃, deleteUnexpected p fuel state c₂ = .ok (.failed c₃) →
          Unmarked p [failureEvent .deletion state] 1 c₂ c₃ := by
  obtain ⟨hfaces, hne⟩ := hopens.faces
  obtain ⟨hfaces₁, hmark₁⟩ := insertMissing_unmarked hinserted hfaces hne
  refine ⟨hmark₁, fun c₂ hreplaced => ?_⟩
  have hne₁ : c₁.stack.topDown ≠ [] := hmark₁.stack_eq ▸ hne
  obtain ⟨hfaces₂, hmark₂⟩ := replaceMisspelled_unmarked hreplaced hfaces₁.self hne₁
  refine ⟨hmark₂, fun c₃ hdeleted => ?_⟩
  have hne₂ : c₂.stack.topDown ≠ [] := hmark₂.stack_eq ▸ hne₁
  exact (deleteUnexpected_unmarked hdeleted hfaces₂.self hne₂).2

/-- A token that the parser for a letter has no action for. -/
def stranger : Symbol Unit := .empty 2 .zero .zero

/-- What is told of a stranger by the attempts that fail, one after the other. -/
def strangerNotices : List (Notice Unit) :=
  [.syntaxError stranger, .trace (failureEvent .insertion startState),
    .lexicalError ⟨.zero, "stray"⟩, .trace (failureEvent .replacement startState),
    .trace (failureEvent .deletion startState)]

/-- In front of a stranger a letter is missing, but another stranger follows, behind a lexical
fault. Neither the letter nor anything else helps. -/
theorem failed_attempts_leave_no_mark_stranger :
    ∃ c c₀ c₁ c₂ c₃ : Configuration Unit Unit,
      Parser.tracedLetter.Reachable (.running stranger c) ∧
      Opens Parser.tracedLetter stranger (c.reported stranger) startState [1] c₀ ∧
      insertMissing Parser.tracedLetter 10 startState [1] c₀ = .ok (.failed c₁) ∧
      replaceMisspelled Parser.tracedLetter 10 startState [1] c₁ = .ok (.failed c₂) ∧
      deleteUnexpected Parser.tracedLetter 10 startState c₂ = .ok (.failed c₃) ∧
      Unmarked Parser.tracedLetter [failureEvent .insertion startState] 1 c₀ c₁ ∧
      Unmarked Parser.tracedLetter [failureEvent .replacement startState] 1 c₁ c₂ ∧
      Unmarked Parser.tracedLetter [failureEvent .deletion startState] 1 c₂ c₃ ∧
      c₃.notices.toList = strangerNotices := by
  obtain ⟨c, stream, hreach, htop, hinsert, hcandidates, hall⟩ :
      ∃ (c : Configuration Unit Unit) (stream : TokenStream Unit),
        Parser.tracedLetter.Reachable (.running stranger c) ∧
        c.stack.topState = .ok startState ∧
        (c.stream.setBuffering true).insert 0 stranger = .ok stream ∧
        candidates Parser.tracedLetter.tables startState = .ok [1] ∧
        (do
          let inserted ← insertMissing Parser.tracedLetter 10 startState [1]
            { c.reported stranger with stream }
          let replaced ← inserted.orElse
            (replaceMisspelled Parser.tracedLetter 10 startState [1])
          replaced.orElse (deleteUnexpected Parser.tracedLetter 10 startState)).toOption.any
          (fun a : Attempt Unit Unit => match a with
            | .settled _ => false
            | .failed c₃ => decide (c₃.notices.toList = strangerNotices)) = true := by
    refine ⟨_, _, ⟨.ofItems [.ok stranger, .error (.lexical ⟨.zero, "stray"⟩), .ok stranger], none,
      _, @Parser.Starts.parse _ _ Parser.tracedLetter _ _ () _ rfl rfl, .refl⟩, rfl, rfl, ?_, ?_⟩
    · decide +kernel
    · decide +kernel
  obtain ⟨a₃, hrun, hfailed⟩ := exists_ok_of_any hall
  obtain ⟨a₁, hinserted, hrun⟩ := bind_eq_ok.mp hrun
  obtain ⟨a₂, hreplaced, hdeleted⟩ := bind_eq_ok.mp hrun
  -- Had one of the first two attempts settled the error, the last would not have failed.
  cases a₁ with
  | settled r =>
    cases hreplaced
    cases hdeleted
    cases hfailed
  | failed c₁ =>
    cases a₂ with
    | settled r =>
      cases hdeleted
      cases hfailed
    | failed c₂ =>
      cases a₃ with
      | settled r => cases hfailed
      | failed c₃ =>
        have hopens : Opens Parser.tracedLetter stranger (c.reported stranger) startState [1]
            { c.reported stranger with stream } := ⟨rfl, htop, hcandidates, stream, hinsert, rfl⟩
        obtain ⟨hmark₁, hlater⟩ := failed_attempts_leave_no_mark hopens hinserted
        obtain ⟨hmark₂, hlast⟩ := hlater c₂ hreplaced
        exact ⟨c, _, c₁, c₂, c₃, hreach, hopens, hinserted, hreplaced, hdeleted, hmark₁, hmark₂,
          hlast c₃ hdeleted, of_decide_eq_true hfailed⟩

end ShiftReduce.Recovery
