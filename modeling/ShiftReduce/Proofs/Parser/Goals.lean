import ShiftReduce.Proofs.Parser.Twins

/-!
# The marker of a goal is a token of the input

A parse for a goal has a marker in front of its input. The marker is not scanned: it is pushed
into the ring of the stream before anything has been read. When it has been taken out again, the
cursors of the ring have moved on by one place, and they stay apart from those of a parse that
has scanned the marker like any other token. Nothing else is different, so the two parses cannot
be told apart.

* `next_of_leading` and `next_of_scanned`: the marker is delivered either way, and leaves streams
  that cannot be told apart.
* `start_twins`: so the two parses start as twins.
* `goal_is_leading_marker`: they end alike, and they come to the heads of their loops together.
-/

namespace ShiftReduce

variable {σ V : Type} {scanner scanner' : Scanner V} {w : Nat} {x : Symbol V}
  {items : List (Except ScanError (Symbol V))} {goal goal' : Option SymbolId} {memory : σ}

namespace TokenStream

variable {s : TokenStream V} {buffer : RingBuffer (Symbol V)}

/-- Streams over different scanners are opened with the same buffer. -/
theorem ofScanner_eq_map (scanner scanner' : Scanner V) (w slotBytes : Nat) :
    ofScanner scanner' w slotBytes =
      (fun s => { s with scanner := scanner' }) <$> ofScanner scanner w slotBytes := by
  rw [ofScanner_eq, ofScanner_eq]
  split
  · split
    · rfl
    · rfl
  · rfl

/-- A token that is pushed into an empty buffer is the next one, and then the buffer is empty
again. -/
theorem next_of_leading (hmode : s.buffering = false) (hnil : s.buffered = [])
    (hpush : s.buffer.pushBack x = .ok buffer) :
    ∃ rest, s.buffer.Twins rest ∧
      { s with buffer }.next = .ok ⟨[], .ok x, { s with buffer := rest }⟩ := by
  have hlist : buffer.toList = [x] := by
    rw [RingBuffer.toList_pushBack hpush, show s.buffer.toList = [] from hnil, List.nil_append]
  obtain ⟨y, rest, hpop⟩ := RingBuffer.exists_popFront (b := buffer) (by
    rw [← RingBuffer.length_toList, hlist]
    exact Nat.one_pos)
  obtain ⟨hrest, hcapacity⟩ := RingBuffer.popFront_eq_ok hpop
  rw [hlist, List.cons_eq_cons] at hrest
  obtain ⟨rfl, hrest⟩ := hrest
  refine ⟨rest, ⟨?_, ?_⟩, ?_⟩
  · rw [← hrest]
    exact hnil.symm
  · rw [hcapacity, RingBuffer.capacity_pushBack hpush]
  · have hsome : buffer.isEmpty = false := by
      rw [← Bool.not_eq_true, buffer.isEmpty_iff_toList, hlist]
      exact List.cons_ne_nil _ _
    simp [next, hmode, hsome, hpop]

/-- A token that is scanned through an empty buffer. -/
theorem next_of_scanned (hmode : s.buffering = false) (hnil : s.buffered = [])
    (items : List (Except ScanError (Symbol V))) :
    { s with scanner := .ofItems (.ok x :: items) }.next =
      .ok ⟨[], .ok x, { s with scanner := ⟨items, x.stop⟩ }⟩ := by
  have hempty : s.buffer.isEmpty = true := s.buffer.isEmpty_iff_toList.mpr hnil
  simp [next, hmode, hempty, Scanner.scan, Scanner.ofItems, Scanner.scanItems]

end TokenStream

/-! ## Twins of which nothing is muted -/

theorem Configuration.Twins.alike {c c' : Configuration σ V} (h : c.Twins false c') :
    c.Alike c' := by
  obtain ⟨⟨hbuffer⟩, hnotices⟩ := h
  rw [Notice.filter_audible_false] at hnotices
  exact ⟨rfl, rfl, Array.toList_inj.mp hnotices, rfl, rfl, hbuffer.toList_eq⟩

theorem Outcome.Twins.eq {o o' : Outcome σ V} (h : o.Twins false o') : o' = o := by
  obtain ⟨hnotices⟩ := h
  rw [Notice.filter_audible_false] at hnotices
  rw [Array.toList_inj.mp hnotices]

namespace Parser

variable {p : Parser σ V}

section

variable (h : Agree (Progress.Twins false) (p.start scanner goal memory)
  (p.start scanner' goal' memory))

include h

theorem starts_muted : Agree (Progress.Twins false) (p.start scanner goal memory)
    ((p.muted false).start scanner' goal' memory) := by
  rw [p.muted_false]
  exact h

/-- Two parses of one parser that start as twins have one outcome. -/
theorem parseFor_eq_of_twins (fuel : Nat) :
    p.parseFor fuel scanner' memory goal' = p.parseFor fuel scanner memory goal := by
  have htwins := parseFor_twins (starts_muted h) fuel
  rw [p.muted_false] at htwins
  exact (htwins.mono fun _ _ => Outcome.Twins.eq).eq

/-- Two parses of one parser that start as twins come to the same heads of their loops. -/
theorem heads_alike {token : Symbol V} :
    (∀ c, p.Heads scanner goal memory token c →
      ∃ c', p.Heads scanner' goal' memory token c' ∧ c.Alike c') ∧
    ∀ c', p.Heads scanner' goal' memory token c' →
      ∃ c, p.Heads scanner goal memory token c ∧ c.Alike c' := by
  have hstart := starts_muted h
  constructor
  · intro c hhead
    obtain ⟨c', hhead', hc⟩ := heads_twins hstart hhead
    rw [p.muted_false] at hhead'
    exact ⟨c', hhead', hc.alike⟩
  · intro c' hhead'
    rw [← p.muted_false] at hhead'
    obtain ⟨c, hhead, hc⟩ := heads_of_twins hstart hhead'
    exact ⟨c, hhead, hc.alike⟩

end

/-! ## The marker -/

/-- A parse for a goal and one of the input behind the marker have both read the marker when they
start. -/
theorem start_twins (p : Parser σ V) (items : List (Except ScanError (Symbol V)))
    (marker : SymbolId) (memory : σ) :
    Agree (Progress.Twins false) (p.start (.ofItems items) (some marker) memory)
      (p.start (.ofItems (.ok (goalMarker marker) :: items)) none memory) := by
  have hother := TokenStream.ofScanner_eq_map (.ofItems items)
    (.ofItems (.ok (goalMarker marker) :: items)) p.settings.window p.slotBytes
  rw [start, start, openFor, openFor, hother]
  cases hopen : TokenStream.ofScanner (.ofItems items) p.settings.window p.slotBytes with
  | error b => exact .error b
  | ok s =>
    obtain ⟨-, -, hmode, hnil⟩ := TokenStream.ofScanner_spec hopen
    obtain ⟨marked, hlead, -⟩ := (TokenStream.ofScanner_fits hopen).withLeading
      (Nat.zero_le _) (goalMarker marker)
    obtain ⟨buffer, hpush, hmarked⟩ := bind_eq_ok.mp hlead
    cases hmarked
    obtain ⟨rest, hrest, hnext⟩ := TokenStream.next_of_leading hmode hnil hpush
    have hscanned := TokenStream.next_of_scanned (x := goalMarker marker) (s := s) hmode hnil items
    have hscanner : s.scanner = ⟨items, (goalMarker marker : Symbol V).stop⟩ :=
      TokenStream.scanner_ofScanner hopen
    rw [← hscanner] at hscanned
    rw [map_ok, ok_bind, ok_bind, hlead, ok_bind]
    simp only [Configuration.readToken, Configuration.initial, hnext, hscanned, ok_bind]
    have hstart : (Configuration.initial { s with buffer := rest } memory).Twins false
        (Configuration.initial s memory) := .intro (.intro hrest.symm) rfl
    exact .ok (.running ((Configuration.Twins.lockstep p false).notifyLexical hstart []))

/-- A parse for a goal is the parse of the items behind the marker, which is a token without a
value in front of the first column: both have the same outcome, with whatever their actions have
recorded of the reductions, or break the same contract, or run out of the same fuel. Also parses
that never end come to the same heads of their loops. -/
theorem goal_is_leading_marker (p : Parser σ V) (items : List (Except ScanError (Symbol V)))
    (marker : SymbolId) (memory : σ) :
    (∀ fuel, p.parseGoal fuel (.ofItems items) marker memory =
        p.parse fuel (.ofItems (.ok (goalMarker marker) :: items)) memory) ∧
      (∀ token c, p.Heads (.ofItems items) (some marker) memory token c →
        ∃ c', p.Heads (.ofItems (.ok (goalMarker marker) :: items)) none memory token c' ∧
          c.Alike c') ∧
      ∀ token c', p.Heads (.ofItems (.ok (goalMarker marker) :: items)) none memory token c' →
        ∃ c, p.Heads (.ofItems items) (some marker) memory token c ∧ c.Alike c' := by
  have hstart := start_twins p items marker memory
  refine ⟨fun fuel => (parseFor_eq_of_twins hstart fuel).symm, ?_, ?_⟩
  · exact fun token => (heads_alike hstart).1
  · exact fun token => (heads_alike hstart).2

/-- A marker that the tables do not have is removed, and the letter behind it becomes the current
token, whether the marker is that of a goal or has been scanned. -/
theorem goal_is_leading_marker_stranger : ∃ c c',
    oneLetter.Heads (.ofItems [.ok letter]) (some 2) () letter c ∧
      oneLetter.Heads (.ofItems [.ok (goalMarker 2), .ok letter]) none () letter c' ∧
      c.notices.toList = [.syntaxError (goalMarker 2), .removed (goalMarker 2)] ∧
      c.Alike c' := by
  obtain ⟨c, hhead, hstep⟩ : ∃ c,
      oneLetter.Heads (.ofItems [.ok letter]) (some 2) () (goalMarker 2) c ∧
        (oneLetter.step 10 (goalMarker 2) c).toOption.any (fun q => decide (
          q.token? = some letter ∧
            q.configuration.notices.toList =
              [.syntaxError (goalMarker 2), .removed (goalMarker 2)])) = true :=
    ⟨_, .intro rfl .refl, by decide +kernel⟩
  obtain ⟨q, hq, hprops⟩ := exists_ok_of_any hstep
  obtain ⟨htoken, hnotices⟩ := of_decide_eq_true hprops
  rw [Progress.eq_running htoken] at hq
  obtain ⟨-, halike, -⟩ := goal_is_leading_marker oneLetter [.ok letter] 2 ()
  have hnext := hhead.step hq
  obtain ⟨c', hother, hc⟩ := halike letter q.configuration hnext
  exact ⟨_, c', hnext, hother, hnotices, hc⟩

end Parser

end ShiftReduce
