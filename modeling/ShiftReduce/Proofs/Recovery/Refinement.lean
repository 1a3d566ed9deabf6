import ShiftReduce.Proofs.Recovery.Phrase
import ShiftReduce.Proofs.Tables.Enumeration

/-!
# Recovery does what is prescribed

* `candidates_eq`: the terminals that are tried are the valid ones of the top state.
* `recover_spec`: what becomes of a syntax error is what is prescribed for it.
-/

namespace ShiftReduce

namespace Recovery

open ShiftReduce.Configuration

variable {σ V : Type} {p : Parser σ V} {fuel : Nat} {c : Configuration σ V} {i : Impasse V}
  {r : Repair σ V} {t : PackedTables} {s : StateId} {ids : List SymbolId} {token : Symbol V}

theorem candidates_eq (h : candidates t s = .ok ids) : ids = t.validTerminals s := by
  obtain ⟨xs, hxs, h⟩ := bind_eq_ok.mp h
  cases h
  cases hcompressed : t.compressed with
  | true =>
    rw [PackedTables.toList_lookaheads_of_compressed hcompressed] at hxs
    cases hxs
    rw [PackedTables.validTerminals, if_pos hcompressed]
    rfl
  | false =>
    have hlist := Lookaheads.toList_spec hxs hcompressed
    simp only [PackedTables.lookaheads, hcompressed, Bool.false_eq_true, if_false, Nat.sub_zero,
      ← List.range_eq_range'] at hlist
    rw [hlist, PackedTables.validTerminals, hcompressed, if_neg Bool.false_ne_true,
      List.filter_filter]

/-- An attempt after another one, that is not to leave anything behind either. -/
theorem Explores.orElse_faces {w : Nat} {Ps Qs : List (Proposal V)} {a a' : Attempt σ V}
    {second : Configuration σ V → Fueled (Attempt σ V)}
    (hfirst : Explores t w c (Faces c i.input) Ps a) (h : a.orElse second = .ok a')
    (hsecond : ∀ c', Faces c i.input c' → ∀ a', second c' = .ok a' →
      Explores t w c' (Faces c' i.input) Qs a') :
    Explores t w c (Faces c i.input) (Ps ++ Qs) a' :=
  hfirst.orElse h fun c' hc' _ ha' =>
    (hsecond c' hc' _ ha').of_faces hc' fun _ hleft => hc'.trans hleft

/-- The edits of the offending token follow each other, each from what the one before
has left. -/
theorem edits_spec {a₁ a₂ a₃ : Attempt σ V} {state : StateId}
    (hinserted : insertMissing p fuel state (p.tables.validTerminals i.top.state) c = .ok a₁)
    (hreplaced : a₁.orElse (replaceMisspelled p fuel state
      (p.tables.validTerminals i.top.state)) = .ok a₂)
    (hdeleted : a₂.orElse (deleteUnexpected p fuel state) = .ok a₃) (hc : Faces c i.input c)
    (hstack : c.stack.topDown = i.stack)
    (herror : p.tables.action i.top.state i.token.id = .ok .error) :
    Explores p.tables (max c.stream.window 1) c (Faces c i.input) (i.edits p.tables) a₃ := by
  have hother : i.token.id ∉ p.tables.validTerminals i.top.state := by
    rw [PackedTables.validTerminals]
    split
    · exact List.not_mem_nil
    · simp [herror]
  have htried := insertMissing_spec hinserted hc hstack
  have htried := htried.orElse_faces hreplaced fun c' hc' a' ha' => by
    have := replaceMisspelled_spec ha' hc'.self (hc'.stack ▸ hstack) hother
    rw [hc'.window] at this
    exact this
  exact htried.orElse_faces hdeleted fun c' hc' a' ha' => by
    have := deleteUnexpected_spec ha' hc'.self (hc'.stack ▸ hstack)
    rw [hc'.window] at this
    exact this

/-- The last strategy takes over what the others have left. -/
theorem Explores.orFinally {a : Attempt σ V} (htried : Explores p.tables (max c.stream.window 1) c
      (Faces c i.input) (i.edits p.tables) a)
    (h : a.orFinally (replacePhrase p fuel s) = .ok r) (hstack : c.stack.topDown = i.stack) :
    Resolves c (Prescribed p.tables (max c.stream.window 1) i) r := by
  cases htried with
  | settled hfirst hcommits =>
    cases h
    exact .repaired (.edit hfirst) hcommits
  | failed hnone hleft =>
    have hresolves := replacePhrase_spec h hleft.self (hleft.stack ▸ hstack)
      (hleft.window ▸ hnone)
    rw [hleft.window] at hresolves
    exact hresolves.of_alike hleft.window hleft.repairs hleft.tokensShifted fun _ ho => ho
  | fault hrepairs =>
    cases h
    exact .fault hrepairs

/-- The end of the input cannot be repaired. -/
theorem recover_of_eof (p : Parser σ V) (fuel : Nat) (c : Configuration σ V)
    (heof : token.id = eof) :
    recover p fuel token c = .ok (.aborted (.unrecoverable .endOfInput token.start) c) := by
  rw [recover, if_pos (by simp [Symbol.isEof, heof])]
  rfl

/-- What becomes of a syntax error is what is prescribed for it, and after a repair
the stream passes through again. -/
theorem recover_spec (h : recover p fuel i.token c = .ok r) (hstack : c.stack.topDown = i.stack)
    (hrest : c.stream.pending = i.rest) (heof : i.token.id ≠ eof)
    (herror : p.tables.action i.top.state i.token.id = .ok .error) :
    Resolves c (Prescribed p.tables (max c.stream.window 1) i) r ∧
      ∀ c', r = .repaired c' → c'.stream.buffering = false := by
  have hstate : c.stack.topState = .ok i.top.state := by
    rw [ParseStack.topState_eq_ok, ParseStack.column, hstack]
    rfl
  rw [recover, if_neg (by simp [Symbol.isEof, heof]), hstate] at h
  simp only [liftM_ok, ok_bind] at h
  obtain ⟨stream, hinsert, h⟩ := bind_eq_ok.mp h
  obtain ⟨ids, hids, h⟩ := bind_eq_ok.mp h
  obtain ⟨inserted, hinserted, h⟩ := bind_eq_ok.mp h
  obtain ⟨replaced, hreplaced, h⟩ := bind_eq_ok.mp h
  obtain ⟨deleted, hdeleted, h⟩ := bind_eq_ok.mp h
  obtain ⟨done, hdone, h⟩ := bind_eq_ok.mp h
  obtain rfl := candidates_eq (liftM_eq_ok.mp hids)
  -- The offending token is back at the head of the stream.
  obtain ⟨hfaces, -⟩ := Faces.inserted (c := { c with stream := c.stream.setBuffering true })
    (liftM_eq_ok.mp hinsert) rfl
  have hself : Faces { c with stream } i.input { c with stream } := by
    have := hfaces.self
    rw [show ({ c with stream := c.stream.setBuffering true } : Configuration σ V).stream.pending =
      i.rest from hrest] at this
    exact this
  have htried := edits_spec hinserted hreplaced hdeleted hself hstack herror
  have hresolves := htried.orFinally hdone hstack
  have hwindow : stream.window = c.stream.window := hfaces.window
  rw [show ({ c with stream } : Configuration σ V).stream.window = c.stream.window from
    hwindow] at hresolves
  have hall := hresolves.of_alike hwindow rfl rfl fun _ ho => ho
  cases hall with
  | repaired ho hc =>
    cases h
    refine ⟨.repaired ho ⟨hc.stack, hc.pending, hc.window, hc.repairs, hc.tokensShifted⟩, ?_⟩
    intro c' hc'
    cases hc'
    rfl
  | givenUp ho hc =>
    cases h
    refine ⟨.givenUp ho hc, ?_⟩
    intro c' hc'
    cases hc'
  | fault hc =>
    cases h
    refine ⟨.fault hc, ?_⟩
    intro c' hc'
    cases hc'

end Recovery

end ShiftReduce
