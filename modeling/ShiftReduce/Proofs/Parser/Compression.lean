import ShiftReduce.Proofs.Parser.Acts
import ShiftReduce.Proofs.Tables.Compression

/-!
# Parses with compressed tables

A compressed table reduces where the plain one has the error action. So a parse of faulty
input goes on differently, but up to the first error action both parsers make the same steps:
they are in the same configuration, and the tables agree on the action and on the goto that
follows.

* `Makes`: what moves a run of the parser makes.
* `step_withTables`: one step, away from the error action.
* `compression_keeps_parses`: whole parses.
-/

namespace ShiftReduce.Parser

open Tables

variable {σ V : Type} {p : Parser σ V} {t' : PackedTables} {fuel : Nat} {token : Symbol V}
  {c : Configuration σ V} {q q' q₁ q₂ : Progress σ V} {scanner : Scanner V}
  {goal : Option SymbolId} {memory : σ} {entry : Entry V} {action : Action}

/-! ## Moves -/

/-- A move of a parser. -/
inductive Transition where
  | shift (state : StateId) (symbol : SymbolId)
  | reduce (rule : RuleId)
  | accept
  deriving DecidableEq, Repr

/-- The moves of a step: those of its action, and the accepting of what a reduction produces. A
repair is not a move. -/
def transitions (token : Symbol V) (q : Progress σ V) : Action → List Transition
  | .shift target => [.shift target token.id]
  | .reduce rule =>
    match q with
    | .running _ _ => [.reduce rule]
    | .finished _ _ => [.reduce rule, .accept]
  | .accept => [.accept]
  | .error => []

/-- Whether the parser meets the error action. -/
def Errs (p : Parser σ V) (token : Symbol V) (c : Configuration σ V) : Prop :=
  ∃ entry, c.stack.top = .ok entry ∧ p.tables.action entry.state token.id = .ok .error

/-- A run of steps, by actions of a kind, with the moves that it makes. -/
inductive Makes (p : Parser σ V) (kind : Action → Prop) :
    Progress σ V → List Transition → Progress σ V → Prop
  | refl {q : Progress σ V} : Makes p kind q [] q
  | head {fuel : Nat} {token : Symbol V} {c : Configuration σ V} {entry : Entry V}
      {action : Action} {q q' : Progress σ V} {moves : List Transition} :
      c.stack.top = .ok entry → p.tables.action entry.state token.id = .ok action →
      kind action → p.step fuel token c = .ok q → Makes p kind q moves q' →
      Makes p kind (.running token c) (transitions token q action ++ moves) q'

/-- A run that meets no error action. -/
abbrev MakesCorrectly (p : Parser σ V) : Progress σ V → List Transition → Progress σ V → Prop :=
  p.Makes (· ≠ .error)

theorem Makes.append {kind : Action → Prop} {moves moves' : List Transition}
    (h : p.Makes kind q moves q₁) (h' : p.Makes kind q₁ moves' q₂) :
    p.Makes kind q (moves ++ moves') q₂ := by
  induction h with
  | refl => exact h'
  | head htop hact hkind hstep _ ih =>
    rw [List.append_assoc]
    exact .head htop hact hkind hstep (ih h')

/-- Away from the error action a step takes no fuel. -/
theorem step_of_not_error (htop : c.stack.top = .ok entry)
    (hact : p.tables.action entry.state token.id = .ok action) (hne : action ≠ .error)
    (fuel fuel' : Nat) : p.step fuel token c = p.step fuel' token c := by
  rw [step_eq_act htop hact, step_eq_act htop hact]
  cases action with
  | error => exact absurd rfl hne
  | _ => rfl

/-- What goes on from where a step is made begins with this step. -/
theorem Makes.uncons {kind : Action → Prop} {moves : List Transition}
    (h : p.Makes kind (.running token c) moves q') (htop : c.stack.top = .ok entry)
    (hact : p.tables.action entry.state token.id = .ok action) (hne : action ≠ .error)
    (hstep : p.step fuel token c = .ok q) :
    (moves = [] ∧ q' = .running token c) ∨
      ∃ rest, moves = transitions token q action ++ rest ∧ p.Makes kind q rest q' := by
  cases h with
  | refl => exact .inl ⟨rfl, rfl⟩
  | head htop' hact' _ hstep' hrest =>
    rw [htop] at htop'
    cases htop'
    rw [hact] at hact'
    cases hact'
    rw [step_of_not_error htop hact hne _, hstep] at hstep'
    cases hstep'
    exact .inr ⟨_, rfl, hrest⟩

/-- Two runs make the same moves as long as both of them are made and the one meets no error
action. -/
theorem Makes.comparable {kind : Action → Prop} {moves moves' : List Transition}
    (h : p.MakesCorrectly q moves q₁) (h' : p.Makes kind q moves' q₂) :
    moves <+: moves' ∨ moves' <+: moves := by
  induction h generalizing moves' with
  | refl => exact .inl (List.nil_prefix)
  | head htop hact hne hstep _ ih =>
    rcases h'.uncons htop hact hne hstep with ⟨rfl, -⟩ | ⟨rest, rfl, hrest⟩
    · exact .inr (List.nil_prefix)
    · simpa only [List.prefix_append_right_inj] using ih hrest

theorem not_errs_of_action (htop : c.stack.top = .ok entry)
    (hact : p.tables.action entry.state token.id = .ok action) (hne : action ≠ .error) :
    ¬p.Errs token c := by
  rintro ⟨entry', htop', hact'⟩
  rw [htop] at htop'
  cases htop'
  rw [hact] at hact'
  cases hact'
  exact hne rfl

/-- A run that has come to its end without the error action does not meet it anywhere. -/
theorem Makes.not_errs {moves : List Transition}
    (h : ∃ moves result c', p.MakesCorrectly q moves (.finished result c'))
    (h' : p.MakesCorrectly q moves (.running token c)) : ¬p.Errs token c := by
  obtain ⟨moves', result, c', h⟩ := h
  generalize hlast : Progress.finished result c' = last at h
  induction h generalizing moves with
  | refl =>
    subst hlast
    cases h'
  | head htop hact hne hstep _ ih =>
    rcases h'.uncons htop hact hne hstep with ⟨-, hq⟩ | ⟨rest, -, hrest⟩
    · cases hq
      exact not_errs_of_action htop hact hne
    · exact ih hrest hlast

/-! ## Other tables -/

def withTables (p : Parser σ V) (t' : PackedTables) : Parser σ V := { p with tables := t' }

theorem reduce_withTables (h : p.tables.Extends t') (rule : RuleId) (token : Symbol V)
    (c : Configuration σ V) : (p.withTables t').reduce rule token c = p.reduce rule token c := by
  have hrule : (p.withTables t').tables.rule rule = p.tables.rule rule := h.rule_eq rule
  rw [reduce, reduce, hrule]
  cases hinfo : p.tables.rule rule with
  | error b => rw [error_bind, error_bind]
  | ok info =>
    rw [ok_bind, ok_bind]
    dsimp only
    split
    · rfl
    · refine bind_congr fun below => bind_congr fun symbols => bind_congr fun produced => ?_
      refine bind_congr fun state => ?_
      rw [show (p.withTables t').tables.goto state info.lhs = _ from
        h.goto_eq state rule info hinfo]
      rfl

/-- Where the parser does not meet the error action, it makes the same step with tables that
do more. -/
theorem step_withTables (h : p.tables.Extends t') (hok : ¬p.Errs token c) (fuel : Nat) :
    (p.withTables t').step fuel token c = p.step fuel token c := by
  cases htop : c.stack.top with
  | error b =>
    rw [step, step, htop]
    simp only [liftM_error, error_bind]
  | ok entry =>
    have hne : p.tables.action entry.state token.id ≠ .ok .error :=
      fun hact => hok ⟨entry, htop, hact⟩
    have hact : (p.withTables t').tables.action entry.state token.id =
      p.tables.action entry.state token.id := h.action_eq _ _ hne
    cases haction : p.tables.action entry.state token.id with
    | error b =>
      rw [step, step, htop]
      simp only [liftM_ok, ok_bind, hact, haction, liftM_error, error_bind]
    | ok action =>
      rw [haction] at hact
      rw [step_eq_act htop hact, step_eq_act htop haction]
      cases action with
      | shift target => rfl
      | accept => rfl
      | error => exact absurd haction hne
      | reduce rule => rw [act, act, reduce_withTables h]

/-- A run that meets no error action is made with tables that do more, too. -/
theorem Makes.withTables {moves : List Transition} (h : p.tables.Extends t')
    (hrun : p.MakesCorrectly q moves q') : (p.withTables t').MakesCorrectly q moves q' := by
  induction hrun with
  | refl => exact .refl
  | @head fuel token _ entry _ _ _ _ htop hact hne hstep _ ih =>
    have hother : p.tables.action entry.state token.id ≠ .ok .error := by
      rw [hact]
      simpa using hne
    have hsame := step_withTables h (not_errs_of_action htop hact hne) fuel
    exact .head htop ((h.action_eq _ _ hother).trans hact) hne (hsame.trans hstep) ih

/-- A run that nowhere meets the error action ends in the same way with tables that do more. -/
theorem run_withTables (h : p.tables.Extends t')
    (hok : ∀ moves token c, p.MakesCorrectly q moves (.running token c) → ¬p.Errs token c)
    (fuel : Nat) : (p.withTables t').run fuel q = p.run fuel q := by
  induction fuel generalizing q with
  | zero => cases q <;> simp only [run]
  | succ fuel ih =>
    cases q with
    | finished result c => simp only [run]
    | running token c =>
      rw [run, run, step_withTables h (hok [] token c .refl)]
      cases hstep : p.step fuel token c with
      | error e => simp only [error_bind]
      | ok q =>
        simp only [ok_bind]
        apply ih
        intro moves token' c' hrun
        obtain ⟨entry, action, htop, hact, -⟩ := exists_act hstep
        refine hok _ token' c' (.head htop hact ?_ hstep hrun)
        rintro rfl
        exact hok [] token c .refl ⟨entry, htop, hact⟩

/-! ## Whole parses -/

/-- A parse that nowhere meets the error action. -/
def Faultless (p : Parser σ V) (scanner : Scanner V) (goal : Option SymbolId) (memory : σ) :
    Prop :=
  ∀ start moves token c, p.Starts scanner goal start → start.configuration.memory = memory →
    p.MakesCorrectly start moves (.running token c) → ¬p.Errs token c

/-- How a parse starts does not depend on the tables. -/
theorem Starts.withTables (h : p.Starts scanner goal q) (t' : PackedTables) :
    (p.withTables t').Starts scanner goal q := by
  cases h with
  | parse hopen hread => exact .parse hopen hread
  | parseGoal hopen hlead hread => exact .parseGoal hopen hlead hread

theorem parseStream_withTables (h : p.tables.Extends t') {stream : TokenStream V}
    (hok : ∀ start moves token c, (Configuration.initial stream memory).readToken = .ok start →
      p.MakesCorrectly start moves (.running token c) → ¬p.Errs token c) (fuel : Nat) :
    (p.withTables t').parseStream fuel stream memory = p.parseStream fuel stream memory := by
  rw [parseStream, parseStream]
  cases hread : (Configuration.initial stream memory).readToken with
  | error b => simp only [liftM_error, error_bind]
  | ok start =>
    simp only [liftM_ok, ok_bind]
    exact run_withTables h (fun moves token c => hok start moves token c hread) fuel

theorem parse_withTables (h : p.tables.Extends t') (hok : p.Faultless scanner none memory)
    (fuel : Nat) : (p.withTables t').parse fuel scanner memory = p.parse fuel scanner memory := by
  rw [parse, parse, withTables]
  cases hopen : TokenStream.ofScanner scanner p.settings.window p.slotBytes with
  | error b => simp only [liftM_error, error_bind]
  | ok stream =>
    simp only [liftM_ok, ok_bind]
    apply parseStream_withTables h
    intro start moves token c hread
    exact hok start moves token c (.parse hopen hread) (readToken_memory hread)

theorem parseGoal_withTables (h : p.tables.Extends t') {marker : SymbolId}
    (hok : p.Faultless scanner (some marker) memory) (fuel : Nat) :
    (p.withTables t').parseGoal fuel scanner marker memory =
      p.parseGoal fuel scanner marker memory := by
  rw [parseGoal, parseGoal, withTables]
  cases hopen : TokenStream.ofScanner scanner p.settings.window p.slotBytes with
  | error b => simp only [liftM_error, error_bind]
  | ok stream =>
    simp only [liftM_ok, ok_bind]
    cases hlead : stream.withLeading (goalMarker marker) with
    | error b => simp only [liftM_error, error_bind]
    | ok marked =>
      simp only [liftM_ok, ok_bind]
      apply parseStream_withTables h
      intro start moves token c hread
      exact hok start moves token c (.parseGoal hopen hlead hread) (readToken_memory hread)

open Builder in
/-- What is built compressed is also built plain, and the other way round. Up to the first error
action of the plain table a parse makes the same moves with the compressed one: every run of it
makes these moves first, if it has come so far. From where such a run stands the next step is the
same as well, also if it breaks a contract. A parse that nowhere meets the error action has the
same outcome. -/
theorem compression_keeps_parses {terminalCount symbolCount : UInt16} {ds : List Declaration} :
    ((∃ t, buildAs terminalCount symbolCount ds true = .ok t) ↔
      ∃ t, buildAs terminalCount symbolCount ds false = .ok t) ∧
    ∀ (p : Parser σ V) (t' : PackedTables),
      buildAs terminalCount symbolCount ds false = .ok p.tables →
      buildAs terminalCount symbolCount ds true = .ok t' →
      (∀ scanner goal start, p.Starts scanner goal start →
        (p.withTables t').Starts scanner goal start ∧
        ∀ moves q, p.MakesCorrectly start moves q →
          (p.withTables t').MakesCorrectly start moves q ∧
          (∀ moves' q', (p.withTables t').Makes (fun _ => True) start moves' q' →
            moves <+: moves' ∨ moves' <+: moves) ∧
          ∀ token c, q = .running token c → ¬p.Errs token c →
            ∀ fuel, (p.withTables t').step fuel token c = p.step fuel token c) ∧
      ∀ scanner memory,
        (p.Faultless scanner none memory → ∀ fuel,
          (p.withTables t').parse fuel scanner memory = p.parse fuel scanner memory) ∧
        ∀ marker, p.Faultless scanner (some marker) memory → ∀ fuel,
          (p.withTables t').parseGoal fuel scanner marker memory =
            p.parseGoal fuel scanner marker memory := by
  refine ⟨builds_iff true false, ?_⟩
  intro p t' hplain hpacked
  have hextends := extends_of_builds hplain hpacked
  constructor
  · intro scanner goal start hstart
    refine ⟨hstart.withTables t', ?_⟩
    intro moves q hrun
    have hrun' := hrun.withTables hextends
    refine ⟨hrun', fun moves' q' h' => hrun'.comparable h', ?_⟩
    intro token c _ hok
    exact step_withTables hextends hok
  · intro scanner memory
    exact ⟨parse_withTables hextends, fun marker => parseGoal_withTables hextends⟩

/-! ## A letter, compressed -/

def letterRules : List Declaration := [.rule 2 1, .shift 0 1 1, .reduce 1 eof 0, .accept 0 2]

/-- The table for a single letter in which the reduction is a default. -/
def foldedTables : PackedTables where
  parts :=
    { codes := #[1, 0, -2]
      owners := #[1, freeSlot, 2]
      actionOffsets := #[-1, unusedOffset]
      gotoOffsets := #[0, unusedOffset]
      defaults := #[0, -1]
      rules := #[.pack 2 1]
      terminalCount := 2
      symbolCount := 3
      errorSymbol := none
      compressed := true }
  sound := by decide +kernel

open Builder in
/-- The rows are packed as they come, all being of one length. -/
theorem buildAs_letterRules (on : Bool) :
    buildAs 2 3 letterRules on = .ok (if on then foldedTables else oneLetterTables) := by
  have horder : (ofDeclarations 2 3 (letterRules ++ [.compressed on])).packingOrder =
      (ofDeclarations 2 3 (letterRules ++ [.compressed on])).rows :=
    List.mergeSort_of_pairwise (by cases on <;> decide +kernel)
  have hparts : (ofDeclarations 2 3 (letterRules ++ [.compressed on])).parts =
      (if on then foldedTables else oneLetterTables).parts := by
    unfold parts
    rw [horder]
    cases on <;> decide +kernel
  have hfault : (ofDeclarations 2 3 (letterRules ++ [.compressed on])).fault? = none := by
    cases on <;> decide +kernel
  have hsound := (if on then foldedTables else oneLetterTables).sound
  rw [buildAs, build_of_sound hfault (hparts ▸ hsound)]
  congr

/-- Behind the letter the end of the input reduces, and the parse is at its end. -/
theorem exists_shift_letter : ∃ stream start token c,
    TokenStream.ofScanner (.ofItems [.ok letter]) oneLetter.settings.window
      oneLetter.slotBytes = .ok stream ∧
    (Configuration.initial stream ()).readToken = .ok start ∧
    oneLetter.MakesCorrectly start [.shift 1 1] (.running token c) ∧
    c.stack.top = .ok ⟨1, letter⟩ ∧ token.id = eof ∧
    (oneLetter.step 0 token c).toOption.any
      (fun q => match q with
        | .finished _ _ => true
        | .running _ _ => false) = true :=
  ⟨_, _, _, _, rfl, rfl,
    @Makes.head _ _ _ _ 0 _ _ _ (.shift 1) _ _ _ rfl rfl (by simp) rfl .refl, rfl, rfl,
    by decide +kernel⟩

/-- A parse of the letter does not meet the error action. -/
theorem faultless_letter : oneLetter.Faultless (.ofItems [.ok letter]) none () := by
  obtain ⟨stream, start, token, c, hopen, hread, hshift, htop, hid, haccepts⟩ := exists_shift_letter
  obtain ⟨q, hstep, hq⟩ := exists_ok_of_any haccepts
  intro start' moves token' c' hstart hmemory hrun
  have hact : oneLetter.tables.action 1 token.id = .ok (.reduce 0) := by
    rw [hid]
    rfl
  cases hstart with
  | @parse _ memory _ hopen' hread' =>
    cases memory
    rw [hopen] at hopen'
    cases hopen'
    rw [hread] at hread'
    cases hread'
    refine Makes.not_errs ?_ hrun
    match q, hq, hstep with
    | .finished result c'', _, hstep =>
      exact ⟨_, result, c'', hshift.append (.head htop hact (by simp) hstep .refl)⟩

/-- The compressed table reduces behind the letter where the plain one has the error action. A
parse of the letter has the same outcome with both. -/
theorem compression_keeps_parses_letter :
    Builder.buildAs 2 3 letterRules false = .ok oneLetterTables ∧
    Builder.buildAs 2 3 letterRules true = .ok foldedTables ∧
    oneLetterTables.action 1 1 = .ok .error ∧ foldedTables.action 1 1 = .ok (.reduce 0) ∧
    ∀ fuel, (oneLetter.withTables foldedTables).parse fuel (.ofItems [.ok letter]) () =
      oneLetter.parse fuel (.ofItems [.ok letter]) () := by
  have hplain := buildAs_letterRules false
  have hpacked := buildAs_letterRules true
  obtain ⟨-, hkeeps⟩ := @compression_keeps_parses Unit Unit 2 3 letterRules
  obtain ⟨-, hparses⟩ := hkeeps oneLetter foldedTables hplain hpacked
  exact ⟨hplain, hpacked, rfl, rfl, (hparses _ ()).1 faultless_letter⟩

end ShiftReduce.Parser
