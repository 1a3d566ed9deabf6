import ShiftReduce.Proofs.Stream.Ahead

/-!
# What a stream is about to deliver

The pending tokens leave out the faults between them. The feed of a stream has these as well, as
they will be met: first the tokens that are held back, then what the scanner is going to answer.
Streams with different buffers and windows can have the same feed, and then each request to one of
them is answered as it is by the other.

* `Scanner.answers` and `TokenStream.feed`: what will be delivered.
* `nextBuffered_feed`: a buffered read delivers what is at the cursor, and a token stays there.
* `nextBuffered_of_feed`: another stream delivers the same.
* `feed_performAll`: what edits of the head do is determined by their answers.
-/

namespace ShiftReduce

variable {V : Type}

namespace Scanner

/-- What a scanner answers to one request after the other, for items behind a position. -/
def answersFrom (stop : Position) :
    List (Except ScanError (Symbol V)) → Stream' (Except ScanError (Symbol V))
  | [] => Stream'.const (.ok (.endOfInput stop))
  | .ok token :: rest => Stream'.cons (.ok token) (answersFrom token.stop rest)
  | .error (.lexical _) :: rest => answersFrom stop rest
  | .error fault :: rest => Stream'.cons (.error fault) (answersFrom stop rest)

/-- What a scanner answers to one request after the other. -/
def answers (s : Scanner V) : Stream' (Except ScanError (Symbol V)) := answersFrom s.stop s.items

/-- The first answer is that to the next request. -/
theorem answers_eq (s : Scanner V) :
    s.answers = Stream'.cons s.scan.result s.scan.scanner.answers :=
  read_scanItems (G := Stream'.cons) (fun _ => Stream'.const_eq _) (fun _ _ _ => rfl)
    (fun _ _ _ => rfl) (fun _ _ _ => rfl) (fun _ _ _ => rfl) s.stop s.items

end Scanner

namespace TokenStream

variable {s s' s₁ s₁' : TokenStream V} {d d' : Delivery V} {x token : Symbol V}
  {rest : List (Symbol V)} {answer : Answer V}

/-- What a stream is about to deliver, from the mark on. -/
def feed (s : TokenStream V) : Stream' (Except ScanError (Symbol V)) :=
  s.buffered.map .ok ++ₛ s.scanner.answers

theorem feed_of_buffered (h : s.buffered = x :: rest) :
    s.feed = Stream'.cons (.ok x) (rest.map .ok ++ₛ s.scanner.answers) := by
  rw [feed, h, List.map_cons, Stream'.cons_append_stream]

/-! ## Reading ahead -/

/-- A buffered read delivers what is at the cursor. The cursor moves on behind a token, which is
still to come from the mark on; at a fault it stays where it is. -/
theorem nextBuffered_feed (h : s.nextBuffered = .ok d) :
    d.result = s.feed.get s.read ∧
      (∀ token, d.result = .ok token → d.stream.feed = s.feed ∧ d.stream.read = s.read + 1) ∧
      ∀ fault, d.result = .error fault → d.stream.read = s.read := by
  unfold nextBuffered at h
  split at h
  · cases h
  · split at h
    -- Behind all that is held back, the scanner answers.
    · rename_i hend
      have hnext : s.feed.get s.read = s.scanner.scan.result := by
        have hbehind := Stream'.get_append_length (s.buffered.map .ok) s.scanner.answers
        rw [List.length_map, length_buffered, ← hend] at hbehind
        rw [feed, hbehind, Scanner.answers_eq]
        rfl
      dsimp only at h
      split at h
      · rename_i token htoken
        obtain ⟨buffer, hpush, hd⟩ := bind_eq_ok.mp h
        cases hd
        refine ⟨(hnext.trans htoken).symm, fun _ _ => ⟨?_, rfl⟩, fun _ hresult => ?_⟩
        · rw [feed, feed, buffered, RingBuffer.toList_pushBack hpush, List.map_append,
            Stream'.append_append_stream, s.scanner.answers_eq, htoken]
          rfl
        · cases hresult
      · rename_i fault hfault
        cases h
        refine ⟨(hnext.trans hfault).symm, fun _ hresult => ?_, fun _ _ => rfl⟩
        cases hresult
    · obtain ⟨token, hget, hd⟩ := bind_eq_ok.mp h
      cases hd
      refine ⟨?_, fun _ _ => ⟨rfl, rfl⟩, fun _ hresult => ?_⟩
      · rw [RingBuffer.get] at hget
        split at hget
        · rename_i found hfound
          cases hget
          rw [← RingBuffer.getElem?_toList] at hfound
          obtain ⟨hlt, hitem⟩ := List.getElem?_eq_some_iff.mp hfound
          rw [feed, Stream'.get_append_left _ _ _ (by rwa [List.length_map]), List.getElem_map]
          exact congrArg _ hitem.symm
        · cases hget
      · cases hresult

/-- A stream that has the same at its cursor delivers the same. -/
theorem nextBuffered_of_feed (h : s'.nextBuffered = .ok d') (hmode : s.buffering = true)
    (hread : s.read ≤ s.buffered.length) (hroom : s.read + 1 < s.buffer.capacity)
    (hcursor : s.read = s'.read) (hfeed : s.feed.get s'.read = s'.feed.get s'.read) :
    ∃ d, s.nextBuffered = .ok d ∧ d.result = d'.result := by
  obtain ⟨d, hnext⟩ := exists_nextBuffered_of_lt hmode hread hroom
  refine ⟨d, hnext, ?_⟩
  rw [(nextBuffered_feed hnext).1, (nextBuffered_feed h).1, hcursor, hfeed]

/-! ## Edits of the head -/

/-- What recovery does to the head of a stream. -/
inductive HeadEdit (V : Type) where
  | insertion (token : Symbol V)
  | replacement (id : SymbolId)
  | deletion

def HeadEdit.operation : HeadEdit V → Operation V
  | insertion token => .insert 0 token
  | replacement id => .modify 0 ({ · with id })
  | deletion => .remove 0

theorem feed_insert (h : s.insert 0 x = .ok s₁) : s₁.feed = Stream'.cons (.ok x) s.feed := by
  obtain ⟨buffer, read, rfl, hbuffer⟩ := insert_front h
  exact feed_of_buffered (s := { s with buffer, read }) hbuffer

theorem feed_remove (h : s.remove 0 = .ok (x, s₁)) : s.feed = Stream'.cons (.ok x) s₁.feed := by
  obtain ⟨buffer, read, rfl, hbuffer⟩ := remove_front h
  exact feed_of_buffered hbuffer

theorem feed_modify (f : Symbol V → Symbol V) (h : s.peek? 0 = some x) :
    (s.modify 0 f).feed = Stream'.cons (.ok (f x)) s.feed.tail := by
  rw [peek?_zero] at h
  obtain ⟨rest, hbuf⟩ := List.head?_eq_some_iff.mp h
  obtain ⟨buffer, hmodify, hbuffer⟩ := modify_front f hbuf
  rw [hmodify, feed_of_buffered hbuf]
  exact feed_of_buffered (s := { s with buffer }) hbuffer

/-- Streams with the same feed have the same one after an edit, if this is answered alike. -/
theorem feed_perform {edit : HeadEdit V} (hfeed : s.feed = s'.feed)
    (h : s.perform edit.operation = .ok (answer, s₁))
    (h' : s'.perform edit.operation = .ok (answer, s₁')) : s₁.feed = s₁'.feed := by
  cases edit with
  | insertion token =>
    obtain ⟨_, hinsert, hdone⟩ := bind_eq_ok.mp h
    cases hdone
    obtain ⟨_, hinsert', hdone⟩ := bind_eq_ok.mp h'
    cases hdone
    rw [feed_insert hinsert, feed_insert hinsert', hfeed]
  | replacement id =>
    cases h
    obtain ⟨hseen, rfl⟩ := Prod.mk.inj (Except.ok.inj h')
    have hpeek : s'.peek? 0 = s.peek? 0 := Answer.seen.inj hseen
    cases hhead : s.peek? 0 with
    | some x => rw [feed_modify _ hhead, feed_modify _ (hpeek.trans hhead), hfeed]
    | none => rw [modify, hhead, modify, hpeek.trans hhead, hfeed]
  | deletion =>
    obtain ⟨⟨x, _⟩, hremove, hdone⟩ := bind_eq_ok.mp h
    cases hdone
    obtain ⟨⟨x', _⟩, hremove', hdone⟩ := bind_eq_ok.mp h'
    cases hdone
    rw [feed_remove hremove, feed_remove hremove'] at hfeed
    exact (Stream'.cons_injective2 hfeed).2

/-- An edit changes neither the window, nor the room, nor the mode. -/
theorem same_of_edit {edit : HeadEdit V} (h : s.perform edit.operation = .ok (answer, s₁)) :
    s₁.window = s.window ∧ s₁.buffer.capacity = s.buffer.capacity ∧
      s₁.buffering = s.buffering := by
  cases edit with
  | insertion token =>
    obtain ⟨_, hinsert, hdone⟩ := bind_eq_ok.mp h
    cases hdone
    obtain ⟨buffer, hpush, hdone⟩ := bind_eq_ok.mp hinsert
    cases hdone
    exact ⟨rfl, capacity_insertNear hpush, rfl⟩
  | replacement id =>
    cases h
    unfold modify
    split
    · exact ⟨rfl, RingBuffer.capacity_set _ _ _, rfl⟩
    · exact ⟨rfl, rfl, rfl⟩
  | deletion =>
    obtain ⟨⟨x, _⟩, hremove, hdone⟩ := bind_eq_ok.mp h
    cases hdone
    obtain ⟨⟨x, buffer⟩, hpop, hdone⟩ := bind_eq_ok.mp hremove
    cases hdone
    exact ⟨rfl, capacity_removeNear hpop, rfl⟩

/-- What `feed_perform` says, for edits one after the other. -/
theorem feed_performAll {edits : List (HeadEdit V)} {answers : List (Answer V)}
    (hfeed : s.feed = s'.feed)
    (h : s.performAll (edits.map HeadEdit.operation) = .ok (answers, s₁))
    (h' : s'.performAll (edits.map HeadEdit.operation) = .ok (answers, s₁')) :
    s₁.feed = s₁'.feed := by
  induction edits generalizing s s' answers with
  | nil =>
    cases h
    cases h'
    exact hfeed
  | cons edit edits ih =>
    obtain ⟨⟨answer, mid⟩, hedit, h⟩ := bind_eq_ok.mp h
    obtain ⟨⟨rest, last⟩, hedits, h⟩ := bind_eq_ok.mp h
    obtain ⟨⟨answer', mid'⟩, hedit', h'⟩ := bind_eq_ok.mp h'
    obtain ⟨⟨rest', last'⟩, hedits', h'⟩ := bind_eq_ok.mp h'
    cases h
    cases h'
    exact ih (feed_perform hfeed hedit hedit') hedits hedits'

/-- What `same_of_edit` says, for edits one after the other. -/
theorem same_of_edits {edits : List (HeadEdit V)} {answers : List (Answer V)}
    (h : s.performAll (edits.map HeadEdit.operation) = .ok (answers, s₁)) :
    s₁.window = s.window ∧ s₁.buffer.capacity = s.buffer.capacity ∧
      s₁.buffering = s.buffering := by
  induction edits generalizing s answers with
  | nil =>
    cases h
    exact ⟨rfl, rfl, rfl⟩
  | cons edit edits ih =>
    obtain ⟨⟨answer, mid⟩, hedit, h⟩ := bind_eq_ok.mp h
    obtain ⟨⟨rest, last⟩, hedits, h⟩ := bind_eq_ok.mp h
    cases h
    obtain ⟨hwindow, hcapacity, hmode⟩ := same_of_edit hedit
    obtain ⟨hwindow', hcapacity', hmode'⟩ := ih hedits
    exact ⟨hwindow'.trans hwindow, hcapacity'.trans hcapacity, hmode'.trans hmode⟩

end TokenStream

end ShiftReduce
