import ShiftReduce.Proofs.Parser.Steps

/-!
# The first feasible repair

The parser edits its stream in place, puts it back after each strategy that fails,
and reads ahead on the way. None of this shows: wherever a parse can be, recovery
makes exactly the first feasible repair, as `Prescribed` lists them.
-/

namespace ShiftReduce

variable {σ V : Type} {p : Parser σ V} {fuel : Nat} {c : Configuration σ V} {token : Symbol V}
  {top : Entry V} {below : List (Entry V)} {r : Repair σ V}

/-- Recovery from a configuration has brought about a resolution: the stack and the
pending tokens are those proposed, the stream passes through, and the repair is
the one that is told; or the parse is given up, and no repair is told. -/
inductive Realizes (c : Configuration σ V) : Resolution V → Repair σ V → Prop
  | repaired {P : Proposal V} {c' : Configuration σ V} : c'.stack.topDown = P.stack →
      c'.stream.pending = P.input → c'.stream.buffering = false →
      c'.repairs = c.repairs ++ [P.notice] → Realizes c (.repaired P) (.repaired c')
  | givenUp {reason : Unrecoverable} {position : Position} {c' : Configuration σ V} :
      c'.repairs = c.repairs →
      Realizes c (.givenUp reason position) (.aborted (.unrecoverable reason position) c')

theorem recover_makes_first_repair (hreach : p.Reachable (.running token c))
    (hstack : c.stack.topDown = top :: below)
    (herror : p.tables.action top.state token.id = .ok .error) (heof : token.id ≠ eof)
    (h : Recovery.recover p fuel token (c.reported token) = .ok r)
    (hfault : ∀ fault c', r ≠ .aborted (.scanner fault) c') :
    ∃ o, Prescribed p.tables (max p.settings.window 1) (c.impasse top below token) o ∧
      (∀ o', Prescribed p.tables (max p.settings.window 1) (c.impasse top below token) o' →
        o' = o) ∧ Realizes c o r := by
  have hwindow : max c.stream.window 1 = max p.settings.window 1 := by
    rw [hreach.passing.2]
    omega
  obtain ⟨hresolves, hmode⟩ := Recovery.recover_spec (i := c.impasse top below token) h hstack rfl
    heof herror
  rw [show (c.reported token).stream.window = c.stream.window from rfl, hwindow] at hresolves
  cases hresolves with
  | @repaired P c' ho hc =>
    refine ⟨_, ho, fun o' ho' => ho'.unique ho, .repaired hc.stack hc.pending (hmode _ rfl) ?_⟩
    rw [hc.repairs, Configuration.repairs_reported]
  | givenUp ho hc =>
    refine ⟨_, ho, fun o' ho' => ho'.unique ho, .givenUp ?_⟩
    rw [hc, Configuration.repairs_reported]
  | fault hc => exact absurd rfl (hfault _ _)

theorem recover_makes_first_repair_oneLetter : ∃ c r,
    Parser.oneLetter.Reachable (.running Parser.letter c) ∧
      Recovery.recover Parser.oneLetter 10 Parser.letter (c.reported Parser.letter) = .ok r ∧
      ∃ o, Prescribed Parser.oneLetterTables 3
        (c.impasse ⟨1, Parser.letter⟩ [⟨startState, .empty eof .zero .zero⟩] Parser.letter) o ∧
        Realizes c o r := by
  obtain ⟨c, hreach, hstack, hrepaired⟩ := Parser.oneLetter_reaches_error
  obtain ⟨r, hrecover, hr⟩ := exists_ok_of_any hrepaired
  have hfault : ∀ fault c', r ≠ .aborted (.scanner fault) c' := by
    rintro fault c' rfl
    cases hr
  obtain ⟨o, ho, -, hrealizes⟩ :=
    recover_makes_first_repair hreach hstack rfl (by decide) hrecover hfault
  exact ⟨c, r, hreach, hrecover, o, ho, hrealizes⟩

end ShiftReduce
