import ShiftReduce.Proofs.Parser.Steps

/-!
# Conservation of tokens

A parse moves tokens from the scanner through the buffer to the stack, edits them in
place, takes them out, puts them back and reads them again. In the end nothing
happens to them but the repairs that are told.

* `Amends`: what each kind of repair does to the tokens from the offending one on.
* `Edited`: a stream after some repairs, each at its position.
* `Trail`: a run, with the terminals shifted in it and its repairs.
* `Goes.conserved` and `Trail.conserved`: what one step does to the whole stream, and
  what all steps have done.
-/

namespace ShiftReduce

open Automaton

variable {σ V : Type} {p : Parser σ V} {fuel w : Nat} {c c' : Configuration σ V}
  {q : Progress σ V} {token token' : Symbol V} {scanner : Scanner V}
  {input rest rest' : Stream' (Symbol V)}

/-! ## What is repaired -/

/-- What a repair that is told does to the tokens from the offending one on. -/
inductive Amends : Notice V → Stream' (Symbol V) → Stream' (Symbol V) → Prop
  | inserted {x : Symbol V} {rest : Stream' (Symbol V)} :
      Amends (.inserted x) rest (Stream'.cons x rest)
  | replaced {x : Symbol V} {id : SymbolId} {rest : Stream' (Symbol V)} : id ≠ x.id →
      Amends (.replaced { x with id }) (Stream'.cons x rest) (Stream'.cons { x with id } rest)
  | removed {x : Symbol V} {rest : Stream' (Symbol V)} :
      Amends (.removed x) (Stream'.cons x rest) rest
  | phraseRemoved {phrase : Symbol V} {rest : Stream' (Symbol V)} {k : Nat} :
      (∀ j < k, (rest.get j).id ≠ eof) → Amends (.phraseRemoved phrase) rest (rest.drop k)

/-- A repair, and the number of tokens in front of the offending one. -/
structure Edit (V : Type) where
  position : Nat
  notice : Notice V

/-- What a stream of tokens has become by some repairs, in order. -/
inductive Edited (input : Stream' (Symbol V)) : List (Edit V) → Stream' (Symbol V) → Prop
  | nothing : Edited input [] input
  | snoc {edits : List (Edit V)} {before : List (Symbol V)} {rest rest' : Stream' (Symbol V)}
      {notice : Notice V} : Edited input edits (before ++ₛ rest) → Amends notice rest rest' →
      Edited input (edits ++ [⟨before.length, notice⟩]) (before ++ₛ rest')

theorem mem_validTerminals {t : PackedTables} {s : StateId} {x : SymbolId}
    (h : x ∈ t.validTerminals s) :
    x ≠ eof ∧ x.toNat < t.terminalCount ∧ t.action s x ≠ .ok .error := by
  unfold PackedTables.validTerminals at h
  split at h
  · exact absurd h List.not_mem_nil
  · simp only [List.mem_filter, List.mem_map, List.mem_range, Bool.and_eq_true, bne_iff_ne,
      decide_eq_true_eq] at h
    obtain ⟨⟨n, hn, rfl⟩, heof, hvalid⟩ := h
    exact ⟨heof, Nat.lt_of_le_of_lt (Nat.mod_le _ _) hn, hvalid⟩

/-- A repair that is prescribed does what it tells. -/
theorem Prescribed.amends {t : PackedTables} {i : Impasse V} {P : Proposal V}
    (h : Prescribed t w i (.repaired P))
    (herror : t.action i.top.state i.token.id = .ok .error) : Amends P.notice i.input P.input := by
  cases h with
  | edit hP =>
    have hmem := hP.mem
    simp only [Impasse.edits, List.mem_append, List.mem_map, List.mem_singleton] at hmem
    rcases hmem with (⟨id, -, rfl⟩ | ⟨id, hid, rfl⟩) | rfl
    · exact .inserted
    · apply Amends.replaced
      intro heq
      apply (mem_validTerminals hid).2.2
      rw [heq]
      exact herror
    · exact .removed
  | phrase _ _ _ _ hwidens =>
    cases hwidens with
    | repaired hbefore _ => exact .phraseRemoved fun j hj => (hbefore j hj).2

namespace Parser

/-! ## Runs with what happens in them -/

def shiftedBy (p : Parser σ V) (token : Symbol V) (c : Configuration σ V) : List (Symbol V) :=
  match c.stack.topState >>= fun state => p.tables.action state token.id with
  | .ok (.shift _) => [token]
  | _ => []

/-- A run, with the terminals that have been shifted in it and with its repairs. Each
repair stands where the current token is: behind all that has been shifted. -/
inductive Trail (p : Parser σ V) (scanner : Scanner V) (goal : Option SymbolId) :
    List (Symbol V) → List (Edit V) → Progress σ V → Prop
  | start {q : Progress σ V} : Starts p scanner goal q → Trail p scanner goal [] [] q
  | step {shifted : List (Symbol V)} {edits : List (Edit V)} {token : Symbol V}
      {c : Configuration σ V} {fuel : Nat} {q : Progress σ V} :
      Trail p scanner goal shifted edits (.running token c) → p.step fuel token c = .ok q →
      Trail p scanner goal (shifted ++ p.shiftedBy token c)
        (edits ++ (q.configuration.repairs.drop c.repairs.length).map (⟨shifted.length, ·⟩)) q

/-- Every run has a trail. -/
theorem Reachable.exists_trail (h : p.Reachable q) :
    ∃ scanner goal shifted edits, p.Trail scanner goal shifted edits q := by
  obtain ⟨scanner, goal, start, hstart, hreach⟩ := h
  induction hreach with
  | refl => exact ⟨scanner, goal, [], [], .start hstart⟩
  | tail _ hstep ih =>
    cases hstep with
    | intro hstep =>
      obtain ⟨scanner, goal, shifted, edits, htrail⟩ := ih
      exact ⟨scanner, goal, _, _, .step htrail hstep⟩

theorem shiftedBy_of_responds {r : Response}
    (hr : Responds p.tables token.id c.stack.column r) :
    p.shiftedBy token c = if r.isShift then [token] else [] := by
  generalize hcol : c.stack.column = column at hr
  have htop : ∀ {s below}, column = s :: below → c.stack.topState = .ok s := by
    rintro s below rfl
    rw [ParseStack.topState_eq_ok, hcol]
    rfl
  cases hr <;> simp [shiftedBy, htop rfl, *, Response.isShift]

/-! ## What is conserved -/

/-- The terminals shifted so far, the current token and those to come are the input
after the repairs so far. -/
def Conserved (input : Stream' (Symbol V)) (shifted : List (Symbol V)) (edits : List (Edit V)) :
    Progress σ V → Prop
  | .running token c => edits.map Edit.notice = c.repairs ∧
      Edited input edits (shifted ++ₛ Stream'.cons token c.stream.pending)
  | .finished _ _ => True

variable {shifted : List (Symbol V)} {edits : List (Edit V)} {goal : Option SymbolId}

/-- A shift moves the current token behind those that were shifted before, a reduction
moves nothing, and a repair edits what comes. -/
theorem Goes.conserved (h : Goes p token c token' c')
    (hc : Conserved input shifted edits (.running token c)) :
    Conserved input (shifted ++ p.shiftedBy token c)
      (edits ++ (c'.repairs.drop c.repairs.length).map (⟨shifted.length, ·⟩))
      (.running token' c') := by
  obtain ⟨hnotices, hedited⟩ := hc
  cases h with
  | shift hr hreply _ hpending hrepairs _ =>
    rw [shiftedBy_of_responds hr, Response.isShift_of_reply hreply, if_pos rfl, hrepairs,
      List.drop_length, List.map_nil, List.append_nil]
    refine ⟨hnotices.trans hrepairs.symm, ?_⟩
    rw [Stream'.append_append_stream, Stream'.cons_append_stream, Stream'.nil_append_stream,
      ← hpending]
    exact hedited
  | reduce hr hreply _ htoken hpending hrepairs _ =>
    rw [shiftedBy_of_responds hr, Response.not_isShift_of_reply (by simp [hreply]),
      if_neg Bool.false_ne_true, hrepairs, List.drop_length, List.map_nil, List.append_nil,
      List.append_nil]
    refine ⟨hnotices.trans hrepairs.symm, ?_⟩
    rw [htoken, hpending]
    exact hedited
  | @repair top below P htop herror _ hprescribed _ hinput hrepairs _ =>
    -- At an error nothing is shifted; the input is edited instead.
    have hnothing : p.shiftedBy token c = [] := by
      have hr : Responds p.tables token.id c.stack.column
          ⟨.refuse .errorAction, top.state :: below.map Entry.state⟩ := by
        rw [ParseStack.column, htop]
        exact .error herror
      rw [shiftedBy_of_responds hr]
      rfl
    rw [hnothing, List.append_nil, hrepairs, List.drop_left]
    refine ⟨?_, ?_⟩
    · rw [List.map_append, hnotices, hrepairs]
      rfl
    · rw [← hinput]
      exact .snoc hedited (hprescribed.amends herror)

theorem Trail.conserved (h : p.Trail scanner goal shifted edits q) :
    Conserved (inputOf scanner goal) shifted edits q ∧ Passing (max p.settings.window 1) q := by
  induction h with
  | @start q hstart =>
    cases q with
    | finished result c => exact ⟨trivial, trivial⟩
    | running token c =>
      obtain ⟨hinput, hrepairs, hpassing⟩ := hstart.running
      exact ⟨⟨hrepairs.symm, hinput ▸ .nothing⟩, hpassing⟩
  | @step shifted edits token c fuel q _ hstep ih =>
    cases q with
    | finished result c' => exact ⟨trivial, trivial⟩
    | running token' c' =>
      exact ⟨(step_goes hstep ih.2.1).1.conserved ih.1, ih.2.step (.intro hstep)⟩

/-- At the head of each step, the terminals shifted so far, the current token, those
buffered and those that the scanner has still to deliver are the input after the
repairs that have been told, each made at its position. -/
theorem tokens_are_conserved {items : List (Except ScanError (Symbol V))}
    (h : p.Trail (.ofItems items) goal shifted edits (.running token c)) :
    edits.map Edit.notice = c.repairs ∧
      Edited
        ((goal.map goalMarker).toList ++ₛ
          Scanner.withEnd .zero (items.filterMap Except.toOption)) edits
        (shifted ++ₛ Stream'.cons token (c.stream.buffered ++ₛ
          Scanner.withEnd c.stream.scanner.stop
            (c.stream.scanner.items.filterMap Except.toOption))) := by
  obtain ⟨⟨hnotices, hedited⟩, -⟩ := h.conserved
  refine ⟨hnotices, ?_⟩
  rw [← Scanner.yields_eq]
  rw [inputOf, Scanner.yields_eq] at hedited
  exact hedited

/-- A letter has been shifted, and the next step takes another one out. -/
theorem exists_trail_to_error : ∃ c,
    oneLetter.Trail (.ofItems [.ok letter, .ok letter]) none [letter] [] (.running letter c) ∧
    (oneLetter.step 10 letter c).toOption.any
      (fun q => match q with
        | .running _ c' => decide (c'.repairs = [.removed letter])
        | .finished _ _ => false) = true := by
  have hstart : oneLetter.Trail (.ofItems [.ok letter, .ok letter]) none [] []
      (.running letter _) := .start (@Starts.parse _ _ oneLetter _ _ () _ rfl rfl)
  have hnext := hstart.step (show oneLetter.step 10 letter _ = .ok (.running letter _) from rfl)
  refine ⟨_, hnext, ?_⟩
  decide +kernel

theorem tokens_are_conserved_oneLetter : ∃ token c shifted edits,
    oneLetter.Trail (.ofItems [.ok letter, .ok letter]) none shifted edits (.running token c) ∧
      edits.map Edit.notice = [.removed letter] ∧
      Edited (Scanner.withEnd .zero [letter, letter]) edits
        (shifted ++ₛ Stream'.cons token (c.stream.buffered ++ₛ
          Scanner.withEnd c.stream.scanner.stop
            (c.stream.scanner.items.filterMap Except.toOption))) := by
  obtain ⟨c, htrail, hstep⟩ := exists_trail_to_error
  obtain ⟨q, hq, hrepairs⟩ := exists_ok_of_any hstep
  cases q with
  | finished result c' => cases hrepairs
  | running token c' =>
    have hnext := htrail.step hq
    obtain ⟨hnotices, hedited⟩ := tokens_are_conserved hnext
    exact ⟨token, c', _, _, hnext, hnotices.trans (of_decide_eq_true hrepairs), hedited⟩

end Parser

end ShiftReduce
