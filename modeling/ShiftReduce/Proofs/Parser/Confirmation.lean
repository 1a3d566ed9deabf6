import ShiftReduce.Proofs.Parser.Growth
import ShiftReduce.Proofs.Parser.Protocol
import ShiftReduce.Proofs.Recovery.Confirmation

/-!
# Traces of success are true

A trace of success says how many entries of the repaired stack the simulation has dropped that
confirmed the repair. However long a parse goes on, each trace of success that it has told is
behind what had been told when that simulation ended.

* `Founded`: each trace of success is due to a repair and to its simulation.
* `founded_of_reachable`: this is so as long as a parse goes on.
* `lowest_depth_is_exact`: the least depth that simulations keep, and what is traced of it.
-/

namespace ShiftReduce.Parser

open ShiftReduce.Configuration Recovery Relation Simulation

variable {σ V : Type} {p : Parser σ V} {fuel : Nat} {c c' : Configuration σ V}
  {token : Symbol V} {q q' : Progress σ V}

/-- Each trace of success that has been told is due to a repair in the parse, which was confirmed
by a simulation from the stack that it has left. -/
def Founded (p : Parser σ V) (c : Configuration σ V) : Prop :=
  ∀ (told later : List (Notice V)) (strategy : Strategy) (state : StateId) (unwound reduced : Nat),
    c.notices.toList = told ++ .trace (.recovery strategy state true unwound reduced) :: later →
    ∃ (fuel : Nat) (token : Symbol V) (c₀ repaired : Configuration σ V) (reports : List (Notice V)),
      p.Reachable (.running token c₀) ∧ p.Errs token c₀ ∧
      recover p fuel token (c₀.reported token) = .ok (.repaired repaired) ∧
      repaired.notices.toList =
        told ++ .trace (.recovery strategy state true unwound reduced) :: reports ∧
      Confirms p (Recovering p fuel token (c₀.reported token)) told repaired.stack reduced

/-- Without a trace of success nothing has to be founded. -/
theorem plain_unconfirmed : Plain fun n : Notice V => n.isSuccess = false :=
  ⟨fun _ => rfl, fun event h => by cases event <;> first | rfl | cases h⟩

/-- A notice in a list that has been extended by other ones was there before. -/
theorem split_of_append {α : Type} {xs more told later : List α} {x : α}
    (h : xs ++ more = told ++ x :: later) (hx : x ∉ more) : ∃ later', xs = told ++ x :: later' := by
  rcases List.append_eq_append_iff.mp h with ⟨between, -, hmore⟩ | ⟨between, hxs, hmore⟩
  · exact absurd (hmore ▸ List.mem_append_right _ List.mem_cons_self) hx
  · cases between with
    | nil =>
      rw [List.nil_append] at hmore
      exact absurd (hmore ▸ List.mem_cons_self) hx
    | cons y between =>
      obtain ⟨rfl, -⟩ := List.cons.inj hmore
      exact ⟨between, hxs⟩

/-- A notice in a list with one more is this one, or it was there before. -/
theorem split_of_concat {α : Type} {xs told later : List α} {x y : α}
    (h : xs ++ [y] = told ++ x :: later) :
    (told = xs ∧ x = y) ∨ ∃ later', xs = told ++ x :: later' := by
  rcases List.eq_nil_or_concat' later with rfl | ⟨later', z, rfl⟩
  · obtain ⟨rfl, hlast⟩ := List.append_inj' h rfl
    exact .inl ⟨rfl, (List.singleton_inj.mp hlast).symm⟩
  · rw [← List.cons_append, ← List.append_assoc] at h
    exact .inr ⟨later', (List.append_inj' h rfl).1⟩

theorem Founded.adds (h : p.Founded c) (hadds : Unconfirmed c c') : p.Founded c' := by
  intro told later strategy state unwound reduced htold
  obtain ⟨more, hmore, hplain⟩ := hadds
  rw [hmore] at htold
  obtain ⟨later', hbefore⟩ := split_of_append htold fun hmem => Bool.noConfusion (hplain _ hmem)
  exact h told later' strategy state unwound reduced hbefore

/-- What recovery traces of a success is founded. -/
theorem Founded.repaired (h : p.Founded c) (hreach : p.Reachable (.running token c))
    (herrs : p.Errs token c)
    (hrecover : recover p fuel token (c.reported token) = .ok (.repaired c')) : p.Founded c' := by
  cases recover_confirmed hrecover with
  | @repaired mid _ strategy state unwound reduced reports hmid hconfirms hnotices hreports =>
    have hreported : Unconfirmed c (c.reported token) := .notify c rfl
    have hfounded : p.Founded mid := h.adds (hreported.trans hmid)
    cases htrace : p.settings.trace with
    | false =>
      rw [traced, htrace, if_neg Bool.false_ne_true, List.nil_append] at hnotices
      exact hfounded.adds ⟨reports, hnotices, hreports⟩
    | true =>
      rw [traced, htrace, if_pos rfl, List.map_singleton] at hnotices
      intro told later strategy' state' unwound' reduced' htold
      rw [hnotices, ← List.append_assoc] at htold
      obtain ⟨later', hbefore⟩ :=
        split_of_append htold fun hmem => Bool.noConfusion (hreports _ hmem)
      rcases split_of_concat hbefore with ⟨rfl, hlast⟩ | ⟨later'', hmid'⟩
      · cases hlast
        exact ⟨fuel, token, c, c', reports, hreach, herrs, hrecover, hnotices, hconfirms⟩
      · exact hfounded told later'' strategy' state' unwound' reduced' hmid'

theorem Founded.of_repair (h : p.Founded c) (hreach : p.Reachable (.running token c))
    (herrs : p.Errs token c) (hrepair : p.repair fuel token c = .ok q) :
    p.Founded q.configuration := by
  have hreported : Unconfirmed c (c.reported token) := .notify c rfl
  rcases repair_cases hrepair with ⟨reason, position, rfl⟩ | ⟨e, c', hrecover, rfl⟩ |
    ⟨c', -, hrecover, hread⟩
  · exact h.adds hreported
  · cases recover_confirmed hrecover with
    | aborted hmore => exact h.adds (hreported.trans hmore)
  · have hreads := readToken_adds plain_unconfirmed hread
    exact (h.repaired hreach herrs hrecover).adds (Adds.trans (.of_eq rfl) hreads)

/-- Wherever a parse is, the traces of success that it has told are founded. -/
theorem founded_of_reachable (h : p.Reachable q) : p.Founded q.configuration := by
  obtain ⟨scanner, goal, start, hstart, hreach⟩ := h
  induction hreach with
  | refl =>
    obtain ⟨stream, memory, hread⟩ := hstart.exists_read
    have hinitial : p.Founded (.initial stream memory) := by
      intro told later strategy state unwound reduced htold
      simp [Configuration.initial] at htold
    exact hinitial.adds (readToken_adds plain_unconfirmed hread)
  | tail hreach hstep ih =>
    cases hstep with
    | @intro fuel token c q hstep =>
      have hreachable : p.Reachable (.running token c) := ⟨scanner, goal, start, hstart, hreach⟩
      rcases step_adds plain_unconfirmed hstep with ⟨herrs, hrepair⟩ | ⟨-, hadds⟩
      · exact ih.of_repair hreachable herrs hrepair
      · exact ih.adds hadds

/-! ## Least depths -/

/-- The least depth is how far a simulation has eaten into its base, and this is what is traced.

Along each trail of a simulation the depth that its simulator keeps is the least one that there has
been. It is at most that of the base, and at least one if the base is not empty; the states of the
base below it are there all the time, and each of the others has been dropped by a reduction. So it
is at the end of a simulation that returns, whatever its simulator has been used for before.

Whenever a parse has traced a success, the number that is said to be reduced is that of the entries
of the repaired stack that the simulation behind it has dropped, and with the least depth it makes
the depth of this stack. -/
theorem lowest_depth_is_exact :
    (∀ (base : Array StateId) (stream : TokenStream V),
      (∀ sim earlier turn s, Simulation.Trail p.tables base stream (sim :: earlier) turn s →
        LowestDepth p.tables base.toList (sim :: earlier) sim.lowestDepth) ∧
      ∀ fuel used run, runWith p.tables fuel used base stream = .ok run →
        ∃ fresh earlier turn s, Simulation.run p.tables fuel base stream = .ok fresh ∧
          fresh.Alike run ∧
          Simulation.Trail p.tables base stream (fresh.simulator :: earlier) turn s ∧
          Ends p.tables turn s fresh ∧
          LowestDepth p.tables base.toList (fresh.simulator :: earlier)
            run.simulator.lowestDepth) ∧
    ∀ q, p.Reachable q → p.Founded q.configuration := by
  refine ⟨fun base stream => ?_, fun q => founded_of_reachable⟩
  have hexact : ∀ sim earlier turn s,
      Simulation.Trail p.tables base stream (sim :: earlier) turn s →
      LowestDepth p.tables base.toList (sim :: earlier) sim.lowestDepth := by
    intro sim earlier turn s htrail
    obtain ⟨_, _, hlast, hlowest⟩ := htrail.lowestDepth
    cases hlast
    exact hlowest
  refine ⟨hexact, fun fuel used run hrun => ?_⟩
  have hagree := run_alike p.tables fuel used base stream
  rw [hrun] at hagree
  generalize hfresh : Simulation.run p.tables fuel base stream = outcome at hagree
  cases hagree with
  | @ok fresh _ halike =>
    obtain ⟨earlier, turn, s, htrail, hends⟩ := exists_trail hfresh
    refine ⟨fresh, earlier, turn, s, rfl, halike, htrail, hends, ?_⟩
    rw [halike.simulator.lowest_eq]
    exact hexact _ _ _ _ htrail

/-- At the end of the input a letter is reduced, so that of two states one is left; and a second
letter is removed after this reduction of one entry has been simulated. -/
theorem lowest_depth_is_exact_oneLetter :
    (∃ (opened : TokenStream Unit) (run fresh : Simulation Unit) (earlier : List Simulator),
      TokenStream.ofScanner (.ofTokens []) 2 12 = .ok opened ∧
      runWith oneLetterTables 2 usedSimulator #[0, 1] (opened.setBuffering true) = .ok run ∧
      run.simulator.lowestDepth = 1 ∧
      LowestDepth oneLetterTables [0, 1] (fresh.simulator :: earlier) 1) ∧
    ∃ (result : Except ParseError (Option Unit)) (c repaired : Configuration Unit Unit)
      (reports : List (Notice Unit)) (moment : Configuration Unit Unit → Prop),
      tracedLetter.Reachable (.finished result c) ∧
      repaired.notices.toList = [.trace (.shift 1 1), .syntaxError letter] ++
        .trace (.recovery .deletion 1 true 0 1) :: reports ∧
      Confirms tracedLetter moment [.trace (.shift 1 1), .syntaxError letter] repaired.stack 1 := by
  obtain ⟨hexact, hfounded⟩ := @lowest_depth_is_exact _ _ tracedLetter
  constructor
  · obtain ⟨opened, hopen⟩ : ∃ opened : TokenStream Unit,
      TokenStream.ofScanner (.ofTokens []) 2 12 = .ok opened := ⟨_, rfl⟩
    obtain ⟨run, hrun, hone⟩ := exists_ok_of_any
      (show (runWith oneLetterTables 2 usedSimulator #[0, 1]
          (opened.setBuffering true)).toOption.any
          (fun run => decide (run.simulator.lowestDepth = 1)) = true by
        cases hopen
        decide +kernel)
    have hdepth := of_decide_eq_true hone
    obtain ⟨-, hruns⟩ := hexact #[0, 1] (opened.setBuffering true)
    obtain ⟨fresh, earlier, _, _, -, -, -, -, hlowest⟩ := hruns 2 usedSimulator run hrun
    rw [hdepth] at hlowest
    exact ⟨opened, run, fresh, earlier, hopen, hrun, hdepth, hlowest⟩
  · obtain ⟨outcome, hparse, houtcome⟩ := exists_ok_of_any
      (show (tracedLetter.parse 10 (.ofTokens [letter, letter]) ()).toOption.any
        (fun outcome => decide (outcome.notices.toList = [.trace (.shift 1 1), .syntaxError letter,
          .trace (.recovery .deletion 1 true 0 1), .removed letter, .trace (.reduce 0 2 1),
          .trace .accept])) = true by decide +kernel)
    have hlist := of_decide_eq_true houtcome
    obtain ⟨start, c, hstart, hreach, -, hnotices⟩ := Answers.reaches (.parse hparse)
    rw [hnotices] at hlist
    have hreachable : tracedLetter.Reachable (.finished outcome.result c) :=
      ⟨_, _, start, hstart, hreach⟩
    obtain ⟨fuel, token, c₀, repaired, reports, -, -, -, htold, hconfirms⟩ :=
      hfounded _ hreachable [.trace (.shift 1 1), .syntaxError letter] _ _ _ _ _ hlist
    exact ⟨outcome.result, c, repaired, reports, _, hreachable, htold, hconfirms⟩

end ShiftReduce.Parser
