import ShiftReduce.Proofs.Recovery.Attempts

/-!
# Error phrases

The last strategy puts the error symbol in the place of the entries above the
nearest one that shifts it, and then discards tokens until the parse can go on.

* `errorShift?_spec`: the search of the stack finds that entry.
* `widenPhrase_spec`: the least number of tokens is discarded.
* `replacePhrase_spec`: what becomes of the impasse, if no edit is feasible.
-/

namespace ShiftReduce.Recovery

open ShiftReduce.Configuration

variable {σ V : Type} {p : Parser σ V} {fuel w unwound depth : Nat} {c₀ c c' : Configuration σ V}
  {input : Stream' (Symbol V)} {phrase : Symbol V} {i : Impasse V} {state target : StateId}
  {kept : List (Entry V)} {r : Repair σ V} {O O' : Resolution V → Prop} {t : PackedTables}
  {error : SymbolId} {s : ParseStack V} {found : Option (Nat × StateId)}

/-! ## The end of a strategy that does not fail -/

/-- A repair is a resolution, or a simulation has met a fault of the scanner. -/
inductive Resolves (c₀ : Configuration σ V) (O : Resolution V → Prop) : Repair σ V → Prop
  | repaired {P : Proposal V} {c : Configuration σ V} : O (.repaired P) → Commits c₀ P c →
      Resolves c₀ O (.repaired c)
  | givenUp {reason : Unrecoverable} {position : Position} {c : Configuration σ V} :
      O (.givenUp reason position) → c.repairs = c₀.repairs →
      Resolves c₀ O (.aborted (.unrecoverable reason position) c)
  | fault {fault : ScanError} {c : Configuration σ V} : c.repairs = c₀.repairs →
      Resolves c₀ O (.aborted (.scanner fault) c)

/-- The repair may be seen from another configuration, and as another resolution. -/
theorem Resolves.of_alike (h : Resolves c O r) (hwindow : c.stream.window = c₀.stream.window)
    (hrepairs : c.repairs = c₀.repairs)
    (hshifted : c.stats.tokensShifted = c₀.stats.tokensShifted) (hO : ∀ o, O o → O' o) :
    Resolves c₀ O' r := by
  cases h with
  | repaired ho hc =>
    exact .repaired (hO _ ho) ⟨hc.stack, hc.pending, hc.window.trans hwindow,
      hrepairs ▸ hc.repairs, hc.tokensShifted.trans hshifted⟩
  | givenUp ho hc => exact .givenUp (hO _ ho) (hc.trans hrepairs)
  | fault hc => exact .fault (hc.trans hrepairs)

/-! ## The entry that shifts the error symbol -/

/-- What a search of some entries, top first, finds: the nearest one that shifts the
error symbol, by its depth, and the state entered from it. -/
inductive Finds (t : PackedTables) (error : SymbolId) (stack : List (Entry V)) :
    Option (Nat × StateId) → Prop
  | nothing : (stack.dropWhile fun e => (t.errorTarget? error e).isNone) = [] →
      Finds t error stack none
  | entry {e : Entry V} {rest : List (Entry V)} {target : StateId} :
      (stack.dropWhile fun e => (t.errorTarget? error e).isNone) = e :: rest →
      t.errorTarget? error e = some target →
      Finds t error stack (some (rest.length + 1, target))

/-- An entry that shifts the error symbol is found where it stands on top. -/
theorem Finds.top {e : Entry V} (rest : List (Entry V))
    (htarget : t.errorTarget? error e = some target) :
    Finds t error (e :: rest) (some (rest.length + 1, target)) :=
  .entry (List.dropWhile_cons_of_neg (by simp [htarget])) htarget

/-- An entry that does not shift the error symbol is passed over. -/
theorem Finds.skip {e : Entry V} {rest : List (Entry V)} (hnone : t.errorTarget? error e = none)
    (h : Finds t error rest found) : Finds t error (e :: rest) found := by
  have hskip : (e :: rest).dropWhile (fun e => (t.errorTarget? error e).isNone) =
      rest.dropWhile (fun e => (t.errorTarget? error e).isNone) :=
    List.dropWhile_cons_of_pos (by simp [hnone])
  cases h with
  | nothing hnil => exact .nothing (hskip.trans hnil)
  | entry hcons htarget => exact .entry (hskip.trans hcons) htarget

theorem length_topDown (s : ParseStack V) : s.topDown.length = s.depth :=
  Stack.length_topDown _

theorem errorShift?_spec (h : errorShift? t error s depth = .ok found) (hdepth : depth ≤ s.depth) :
    Finds t error (s.topDown.drop (s.depth - depth)) found := by
  -- By induction on the depth at which the search goes on: above it, no entry shifts the
  -- error symbol.
  induction depth with
  | zero =>
    cases h
    rw [Nat.sub_zero, List.drop_eq_nil_of_le (Nat.le_of_eq (length_topDown s))]
    exact .nothing rfl
  | succ depth ih =>
    have hlt : s.depth - (depth + 1) < s.topDown.length := by
      rw [length_topDown]
      omega
    have hget : s.entries.get? depth = (s.topDown.drop (s.depth - (depth + 1))).head? :=
      Stack.get?_eq_head? _ hdepth
    have hdrop : s.topDown.drop (s.depth - (depth + 1)) =
        s.topDown[s.depth - (depth + 1)] :: s.topDown.drop (s.depth - depth) := by
      rw [List.drop_eq_getElem_cons hlt]
      congr 2
      omega
    generalize s.topDown[s.depth - (depth + 1)] = entry at hdrop
    rw [errorShift?, hget, hdrop, List.head?_cons] at h
    obtain ⟨action, hgoto, h⟩ := bind_eq_ok.mp h
    rw [hdrop]
    by_cases hshift : ∃ target, action = .shift target
    · obtain ⟨target, rfl⟩ := hshift
      cases h
      have htarget : t.errorTarget? error entry = some target := by
        rw [PackedTables.errorTarget?, hgoto]
      have hlength : depth + 1 = (s.topDown.drop (s.depth - depth)).length + 1 := by
        rw [List.length_drop, length_topDown]
        omega
      rw [hlength]
      exact .top _ htarget
    · have hnone : t.errorTarget? error entry = none := by
        rw [PackedTables.errorTarget?, hgoto]
        cases action with
        | shift target => exact absurd ⟨target, rfl⟩ hshift
        | _ => rfl
      have hrest : errorShift? t error s depth = .ok found := by
        cases action with
        | shift target => exact absurd ⟨target, rfl⟩ hshift
        | _ => exact h
      exact (ih hrest (Nat.le_of_succ_le hdepth)).skip hnone

/-- The symbol that takes the place of the entries above a depth. -/
theorem phraseSymbol_eq (error : SymbolId) {above below : List (Entry V)}
    (h : s.topDown = above ++ below) (head : Position) :
    phraseSymbol error s below.length head = .empty error
      ((above.getLast?.map (·.symbol.start)).getD head)
      ((above.head?.map (·.symbol.stop)).getD head) := by
  have hsymbols : s.symbols.toList = (below.map Entry.symbol).reverse ++
      (above.map Entry.symbol).reverse := by
    have hentries : s.entries.items.toList = s.topDown.reverse := by
      rw [ParseStack.topDown, Stack.topDown, List.reverse_reverse]
    rw [ParseStack.symbols, Array.toList_map, hentries, h, ← List.map_reverse,
      List.reverse_append, List.map_append, List.map_reverse, List.map_reverse]
  have hdepth : s.depth = above.length + below.length := by
    rw [← length_topDown, h, List.length_append]
  have hunwound : (s.symbols.extract below.length s.depth).toList =
      (above.map Entry.symbol).reverse := by
    rw [Array.toList_extract, hsymbols, List.extract_eq_take_drop, List.drop_left' (by simp),
      List.take_of_length_le (by simp; omega)]
  rw [phraseSymbol]
  simp only [← Array.getElem?_toList, ← Array.getLast?_toList, hunwound, List.getLast?_reverse,
    ← List.head?_eq_getElem?, List.head?_reverse, List.getLast?_map, List.head?_map,
    Option.map_map]
  rfl

/-! ## Widening -/

/-- Discarding one more token first. -/
theorem widens_succ {propose propose' : Nat → Proposal V} {x : Symbol V}
    {tail : Stream' (Symbol V)} {o : Resolution V} (hpropose : ∀ k, propose' k = propose (k + 1))
    (hzero : ¬(propose 0).Feasible t w) (hx : x.id ≠ eof) (h : Widens t w propose' tail o) :
    Widens t w propose (Stream'.cons x tail) o := by
  have hbefore : ∀ k, (∀ j < k, ¬(propose' j).Feasible t w ∧ (tail.get j).id ≠ eof) →
      ∀ j < k + 1, ¬(propose j).Feasible t w ∧ ((Stream'.cons x tail).get j).id ≠ eof := by
    intro k hk j hj
    cases j with
    | zero => exact ⟨hzero, hx⟩
    | succ j =>
      rw [← hpropose]
      exact hk j (Nat.lt_of_succ_lt_succ hj)
  cases h with
  | @repaired k hk hfeasible =>
    rw [hpropose] at hfeasible ⊢
    exact .repaired (hbefore k hk) hfeasible
  | @exhausted k hk hfeasible heof =>
    rw [hpropose] at hfeasible
    exact .exhausted (k := k + 1) (hbefore k hk) hfeasible heof

theorem phrase_succ (target : StateId) (kept : List (Entry V)) (phrase x : Symbol V)
    (tail : Stream' (Symbol V)) (k : Nat) :
    Proposal.phrase target kept { phrase with stop := x.stop } tail k =
      Proposal.phrase target kept phrase (Stream'.cons x tail) (k + 1) := by
  cases k <;> rfl

/-- A phrase is widened until the parse can go on, but not by the end of the input. -/
theorem widenPhrase_spec (h : widenPhrase p state unwound fuel c = .ok r)
    (hstack : c.stack.topDown = ⟨target, phrase⟩ :: kept) (hpending : c.stream.pending = input) :
    Resolves c (Widens p.tables (max c.stream.window 1)
      (Proposal.phrase target kept phrase input) input) r := by
  -- By induction on the fuel. Each round discards a token, which the phrase then covers.
  induction fuel generalizing c phrase input with
  | zero => cases h
  | succ fuel ih =>
    obtain ⟨⟨sim, c₁⟩, hsim, h⟩ := bind_eq_ok.mp h
    obtain ⟨hrepairs, hdecides⟩ := simulate_spec hsim (by simp [hstack])
    have hfeasible := feasible_iff (p := p) (c := c) (w := max c.stream.window 1)
      (P := Proposal.phrase target kept phrase input 0) hstack hpending
    simp only at h
    split at h
    · cases h
      exact .fault hrepairs
    · rename_i hok
      obtain ⟨hfaces, hdecided⟩ := hdecides true hok
      rw [hfeasible] at hdecided
      have htraced := hfaces.traced p
        (.recovery .phrase state true unwound (c₁.stack.depth - sim.simulator.lowestDepth))
      have htop : (traceSuccess p .phrase state unwound sim c₁).stack.topSymbol = .ok phrase := by
        rw [traceSuccess, ParseStack.topSymbol_eq_ok, htraced.stack, hstack]
        exact ⟨_, rfl, rfl⟩
      rw [htop] at h
      cases h
      rw [hpending] at htraced
      exact .repaired (.repaired (by simp) (hdecided.mpr rfl))
        (htraced.commits_notify (P := Proposal.phrase target kept phrase input 0) hstack rfl)
    · rename_i hok
      obtain ⟨hfaces, hdecided⟩ := hdecides false hok
      rw [hfeasible] at hdecided
      have hzero : ¬(Proposal.phrase target kept phrase input 0).Feasible p.tables
          (max c.stream.window 1) := fun hP => Bool.false_ne_true (hdecided.mp hP)
      rw [hpending, ← Stream'.eta input] at hfaces
      rw [← Stream'.eta input]
      obtain ⟨⟨x, stream⟩, hremove, h⟩ := bind_eq_ok.mp h
      obtain ⟨rfl, hrest, hmode, hwindow, -⟩ := hfaces.removed (liftM_eq_ok.mp hremove)
      split at h
      · rename_i heof
        cases h
        have hid : input.head.id = eof := by simpa [Symbol.isEof] using heof
        refine .givenUp (.exhausted (k := 0) (by simp) ?_ hid) ?_
        · rw [Stream'.eta input]
          exact hzero
        · rw [traceFailure, repairs_trace]
          exact hrepairs
      · rename_i heof
        obtain ⟨stack, hmodify, h⟩ := bind_eq_ok.mp h
        have hid : input.head.id ≠ eof := by simpa [Symbol.isEof] using heof
        have hstack' : stack.topDown = ⟨target, { phrase with stop := input.head.stop }⟩ :: kept :=
          ParseStack.modifyTopSymbol_eq_ok (liftM_eq_ok.mp hmodify) (hfaces.stack ▸ hstack)
        have hresolves := ih h hstack' hrest
        rw [show ({ c₁ with stack, stream } : Configuration σ V).stream.window =
          c.stream.window from hwindow] at hresolves
        apply hresolves.of_alike hwindow hrepairs hfaces.tokensShifted
        intro o ho
        refine widens_succ (phrase_succ target kept phrase input.head input.tail) ?_ hid ho
        rw [Stream'.eta input]
        exact hzero

/-- What becomes of an impasse in which no edit is feasible. -/
theorem replacePhrase_spec (h : replacePhrase p fuel state c = .ok r) (hc : Faces c i.input c)
    (hstack : c.stack.topDown = i.stack)
    (hnone : ∀ P ∈ i.edits p.tables, ¬P.Feasible p.tables (max c.stream.window 1)) :
    Resolves c (Prescribed p.tables (max c.stream.window 1) i) r := by
  have htop : c.stack.topSymbol = .ok i.top.symbol := by
    rw [ParseStack.topSymbol_eq_ok, hstack]
    exact ⟨i.top, rfl, rfl⟩
  obtain ⟨rest, hbuf, -⟩ := hc.exists_buffered
  have hhead : ((c.stream.peek? 0).map Symbol.start).getD i.top.symbol.stop = i.token.start := by
    rw [TokenStream.peek?_zero, hbuf]
    rfl
  rw [replacePhrase, htop] at h
  simp only [liftM_ok, ok_bind, hhead] at h
  split at h
  · rename_i herror
    cases h
    refine .givenUp (.noErrorState hnone ?_) ?_
    · intro error herror'
      rw [herror] at herror'
      cases herror'
    · rw [traceFailure, repairs_trace]
  · rename_i error herror
    obtain ⟨found, hsearch, h⟩ := bind_eq_ok.mp h
    have hfinds := errorShift?_spec (liftM_eq_ok.mp hsearch) (Nat.le_refl _)
    rw [Nat.sub_self, List.drop_zero, hstack] at hfinds
    cases hfinds with
    | nothing hnil =>
      cases h
      refine .givenUp (.noErrorState hnone ?_) ?_
      · intro error' herror'
        rw [herror] at herror'
        cases herror'
        exact hnil
      · rw [traceFailure, repairs_trace]
    | @entry e rest target hcons htarget =>
      have hsplit : c.stack.topDown = i.unwound p.tables error ++ e :: rest := by
        rw [hstack, ← hcons]
        exact (List.takeWhile_append_dropWhile).symm
      have hphrase : phraseSymbol error c.stack (rest.length + 1) i.token.start =
          i.phrase p.tables error :=
        phraseSymbol_eq error hsplit i.token.start
      have hdepth : c.stack.depth - (rest.length + 1) = (i.unwound p.tables error).length := by
        rw [← length_topDown, hsplit, List.length_append, List.length_cons]
        omega
      simp only [hphrase] at h
      have hkept : (c.stack.truncate (rest.length + 1)).topDown = e :: rest := by
        rw [ParseStack.topDown_truncate, hdepth, hsplit, List.drop_left]
      have hpushed : (({ c with stack := c.stack.truncate (rest.length + 1) }.push target
          (i.phrase p.tables error)).stack).topDown =
            ⟨target, i.phrase p.tables error⟩ :: e :: rest := by
        rw [push_stack, ParseStack.topDown_push, hkept]
      have hresolves := widenPhrase_spec h hpushed hc.pending
      exact hresolves.of_alike rfl rfl rfl fun o ho => .phrase hnone herror hcons htarget ho

end ShiftReduce.Recovery
