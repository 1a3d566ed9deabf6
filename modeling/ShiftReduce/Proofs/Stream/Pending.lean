import Mathlib.Data.Stream.Init
import ShiftReduce.Proofs.Checked
import ShiftReduce.RingBuffer.Lemmas
import ShiftReduce.TokenStream

/-!
# Pending tokens

The tokens that a stream has still to deliver are those in its buffer and then
those of its scanner, without the faults among them. There is always a next one,
since the end of input comes again and again; so they are an endless stream.

Reading takes the head of the pending tokens off (`next_spec`). Reading ahead
only moves tokens from the scanner into the buffer (`nextBuffered_spec`), and
edits change the head alone.
-/

namespace ShiftReduce

variable {V : Type}

namespace Scanner

/-- The tokens among items, and then the end of input at the end of the last. -/
def yieldsFrom (stop : Position) : List (Except ScanError (Symbol V)) → Stream' (Symbol V)
  | [] => Stream'.const (.endOfInput stop)
  | .ok token :: rest => Stream'.cons token (yieldsFrom token.stop rest)
  | .error _ :: rest => yieldsFrom stop rest

/-- The tokens that a scanner has still to deliver. -/
def yields (s : Scanner V) : Stream' (Symbol V) := yieldsFrom s.stop s.items

/-- Some tokens, and then the end of input without end, at the end of the last token. -/
def withEnd (stop : Position) (tokens : List (Symbol V)) : Stream' (Symbol V) :=
  tokens ++ₛ Stream'.const (.endOfInput ((tokens.getLast?.map Symbol.stop).getD stop))

/-- A scanner delivers its tokens in order, without the faults among them. -/
theorem yields_eq (s : Scanner V) :
    s.yields = withEnd s.stop (s.items.filterMap Except.toOption) := by
  obtain ⟨items, stop⟩ := s
  show yieldsFrom stop items = _
  -- The end of input stands at the end of the last token, so its place is general here.
  induction items generalizing stop with
  | nil => rfl
  | cons item rest ih =>
    cases item with
    | ok token =>
      have hlast : ∀ tokens : List (Symbol V),
          (((token :: tokens).getLast?.map Symbol.stop).getD stop) =
            (tokens.getLast?.map Symbol.stop).getD token.stop := by
        intro tokens
        cases h : tokens.getLast? <;> simp [List.getLast?_cons, h]
      rw [yieldsFrom, ih, List.filterMap_cons_some (rfl : Except.toOption (.ok token) = some token),
        withEnd, withEnd, hlast, Stream'.cons_append_stream]
    | error fault =>
      rw [yieldsFrom, ih, List.filterMap_cons_none rfl]

/-- Each token that a scanner delivers is one of its items, or the end of input. -/
theorem get_yieldsFrom (stop : Position) (items : List (Except ScanError (Symbol V))) (n : Nat) :
    .ok ((yieldsFrom stop items).get n) ∈ items ∨
      ∃ pos, (yieldsFrom stop items).get n = .endOfInput pos := by
  induction items generalizing stop n with
  | nil => exact .inr ⟨stop, rfl⟩
  | cons item rest ih =>
    cases item with
    | ok token =>
      cases n with
      | zero => exact .inl List.mem_cons_self
      | succ n => exact (ih token.stop n).imp_left (List.mem_cons_of_mem _)
    | error fault => exact (ih stop n).imp_left (List.mem_cons_of_mem _)

/-- What is read off items without their lexical faults begins with what a scan answers, and goes
on with what the scan leaves. -/
theorem read_scanItems {α : Type} {F : Position → List (Except ScanError (Symbol V)) → α}
    {G : Except ScanError (Symbol V) → α → α}
    (hnil : ∀ stop, F stop [] = G (.ok (.endOfInput stop)) (F stop []))
    (hok : ∀ stop token rest, F stop (.ok token :: rest) = G (.ok token) (F token.stop rest))
    (hlexical : ∀ stop e rest, F stop (.error (.lexical e) :: rest) = F stop rest)
    (hio : ∀ stop message rest,
      F stop (.error (.io message) :: rest) = G (.error (.io message)) (F stop rest))
    (hother : ∀ stop message rest,
      F stop (.error (.other message) :: rest) = G (.error (.other message)) (F stop rest))
    (stop : Position) (items : List (Except ScanError (Symbol V))) :
    F stop items = G (scanItems stop items).result
      (F (scanItems stop items).scanner.stop (scanItems stop items).scanner.items) := by
  induction items with
  | nil => exact hnil stop
  | cons item rest ih =>
    cases item with
    | ok token => exact hok stop token rest
    | error fault =>
      cases fault with
      | lexical e => exact (hlexical stop e rest).trans ih
      | io message => exact hio stop message rest
      | other message => exact hother stop message rest

/-- What a scan leaves and what it delivers are together what there was. -/
theorem yields_eq_scan (s : Scanner V) :
    s.yields = match s.scan.result with
      | .ok token => Stream'.cons token s.scan.scanner.yields
      | .error _ => s.scan.scanner.yields :=
  read_scanItems
    (G := fun result rest => match result with
      | .ok token => Stream'.cons token rest
      | .error _ => rest)
    (fun _ => Stream'.const_eq _) (fun _ _ _ => rfl) (fun _ _ _ => rfl) (fun _ _ _ => rfl)
    (fun _ _ _ => rfl) s.stop s.items

theorem yields_of_scan_ok {s : Scanner V} {token : Symbol V} (h : s.scan.result = .ok token) :
    s.yields = Stream'.cons token s.scan.scanner.yields := by
  rw [yields_eq_scan, h]

theorem yields_of_scan_error {s : Scanner V} {fault : ScanError}
    (h : s.scan.result = .error fault) : s.yields = s.scan.scanner.yields := by
  rw [yields_eq_scan, h]

end Scanner

namespace TokenStream

variable {s s' : TokenStream V} {d : Delivery V} {x token : Symbol V} {rest : List (Symbol V)}

/-- The tokens that a stream has still to deliver, from the mark on. -/
def pending (s : TokenStream V) : Stream' (Symbol V) := s.buffered ++ₛ s.scanner.yields

/-- The terminals that a stream has still to deliver, from the mark on. -/
def terminals (s : TokenStream V) : Stream' SymbolId := s.pending.map Symbol.id

theorem terminals_of_pending (h : s.pending = Stream'.cons x s'.pending) :
    s.terminals = Stream'.cons x.id s'.terminals := by
  rw [terminals, h, Stream'.map_cons, terminals]

theorem pending_of_buffered (h : s.buffered = x :: rest) :
    s.pending = Stream'.cons x (rest ++ₛ s.scanner.yields) := by
  rw [pending, h, Stream'.cons_append_stream]

theorem get_pending_of_lt {i : Nat} (h : s.buffered[i]? = some x) : s.pending.get i = x := by
  obtain ⟨hlt, hget⟩ := List.getElem?_eq_some_iff.mp h
  rw [pending, Stream'.get_append_left _ _ _ hlt, hget]

/-! ## The scanner

Only reading takes anything from the scanner. -/

theorem scanner_ofScanner {scanner : Scanner V} {window slotBytes : Nat}
    (h : ofScanner scanner window slotBytes = .ok s) : s.scanner = scanner := by
  simp only [ofScanner, bind_eq_ok] at h
  obtain ⟨capacity, _, buffer, _, hs⟩ := h
  cases hs
  rfl

theorem scanner_withLeading (h : s.withLeading x = .ok s') : s'.scanner = s.scanner := by
  obtain ⟨buffer, -, h⟩ := bind_eq_ok.mp h
  cases h
  rfl

theorem scanner_rewind (h : s.rewind = .ok s') : s'.scanner = s.scanner := by
  unfold rewind at h
  split at h
  · cases h
    rfl
  · cases h

theorem scanner_insert {offset : Nat} (h : s.insert offset x = .ok s') :
    s'.scanner = s.scanner := by
  obtain ⟨buffer, -, h⟩ := bind_eq_ok.mp h
  cases h
  rfl

theorem scanner_remove {offset : Nat} (h : s.remove offset = .ok (x, s')) :
    s'.scanner = s.scanner := by
  obtain ⟨⟨found, buffer⟩, -, h⟩ := bind_eq_ok.mp h
  cases h
  rfl

theorem scanner_modify (s : TokenStream V) (offset : Nat) (f : Symbol V → Symbol V) :
    (s.modify offset f).scanner = s.scanner := by
  unfold modify
  split <;> rfl

/-! ## Reading -/

theorem ofScanner_spec {scanner : Scanner V} {window slotBytes : Nat}
    (h : ofScanner scanner window slotBytes = .ok s) :
    s.pending = scanner.yields ∧ s.window = max window 1 ∧ s.buffering = false ∧
      s.buffered = [] := by
  simp only [ofScanner, bind_eq_ok] at h
  obtain ⟨capacity, _, buffer, hbuffer, hs⟩ := h
  cases hs
  have hnil := (RingBuffer.ofCapacity_eq_ok hbuffer).1
  refine ⟨?_, rfl, rfl, hnil⟩
  rw [pending, buffered, hnil, Stream'.nil_append_stream]

theorem withLeading_spec (h : s.withLeading x = .ok s') (hnil : s.buffered = []) :
    s'.pending = Stream'.cons x s.pending ∧ s'.window = s.window ∧
      s'.buffering = s.buffering := by
  simp only [withLeading, bind_eq_ok] at h
  obtain ⟨buffer, hbuffer, hs⟩ := h
  cases hs
  refine ⟨?_, rfl, rfl⟩
  rw [pending, pending, buffered, RingBuffer.toList_pushBack hbuffer]
  rw [buffered] at hnil
  rw [hnil, buffered, hnil]
  rfl

/-- A direct read delivers the head of the pending tokens, unless it is a fault. -/
theorem next_spec (h : s.next = .ok d) :
    s.buffering = false ∧ d.stream.buffering = false ∧ d.stream.window = s.window ∧
      ∀ token, d.result = .ok token → s.pending = Stream'.cons token d.stream.pending := by
  unfold next at h
  split at h
  · cases h
  · rename_i hmode
    simp only [Bool.not_eq_true] at hmode
    split at h
    · rename_i hempty
      cases h
      refine ⟨hmode, hmode, rfl, ?_⟩
      intro token htoken
      have hnil : s.buffer.toList = [] := s.buffer.isEmpty_iff_toList.mp hempty
      simp only [pending, buffered, hnil, Stream'.nil_append_stream]
      exact Scanner.yields_of_scan_ok htoken
    · obtain ⟨⟨first, buffer⟩, hpop, hd⟩ := bind_eq_ok.mp h
      cases hd
      refine ⟨hmode, hmode, rfl, ?_⟩
      intro token htoken
      cases htoken
      exact pending_of_buffered (RingBuffer.popFront_eq_ok hpop).1

/-- A direct read of a stream that passes through is within the contract. -/
theorem exists_next (h : s.buffering = false) : ∃ d, s.next = .ok d := by
  unfold next
  rw [if_neg (by simp [h])]
  split
  · exact ⟨_, rfl⟩
  · rename_i hempty
    have hpos : 0 < s.buffer.length := by
      have := mt s.buffer.isEmpty_iff.mpr hempty
      omega
    obtain ⟨first, buffer, hpop⟩ := RingBuffer.exists_popFront hpos
    rw [hpop]
    exact ⟨_, rfl⟩

/-- A direct read takes what is buffered first. -/
theorem next_of_buffered (h : s.buffering = false) (hbuf : s.buffered = x :: rest) :
    ∃ buffer, buffer.toList = rest ∧ s.next = .ok ⟨[], .ok x, { s with buffer }⟩ := by
  have hlen : s.buffer.length = rest.length + 1 := by
    rw [← RingBuffer.length_toList, show s.buffer.toList = x :: rest from hbuf, List.length_cons]
  obtain ⟨first, buffer, hpop⟩ := RingBuffer.exists_popFront (b := s.buffer) (by omega)
  have hlist := (RingBuffer.popFront_eq_ok hpop).1
  rw [show s.buffer.toList = x :: rest from hbuf] at hlist
  obtain ⟨rfl, rfl⟩ := List.cons.inj hlist
  refine ⟨buffer, rfl, ?_⟩
  unfold next
  rw [if_neg (by simp [h]), if_neg, hpop]
  · rfl
  · rw [s.buffer.isEmpty_iff]
    omega

/-- A buffered read delivers the pending token at the cursor, unless it is a fault.
The pending tokens stay, and the buffer only grows. -/
theorem nextBuffered_spec (h : s.nextBuffered = .ok d) (hread : s.read ≤ s.buffered.length) :
    d.stream.buffering = true ∧ d.stream.window = s.window ∧ d.stream.pending = s.pending ∧
      s.buffered <+: d.stream.buffered ∧
      ∀ token, d.result = .ok token → token = s.pending.get s.read ∧
        d.stream.read = s.read + 1 ∧ s.read + 1 ≤ d.stream.buffered.length := by
  unfold nextBuffered at h
  split at h
  · cases h
  · rename_i hmode
    simp only [Bool.not_eq_true, Bool.not_eq_false'] at hmode
    split at h
    -- At the end of the buffer, the scanner is asked, and its token is buffered.
    · rename_i hend
      rw [← RingBuffer.length_toList] at hend
      simp only at h
      split at h
      · rename_i token htoken
        obtain ⟨buffer, hpush, hd⟩ := bind_eq_ok.mp h
        cases hd
        have hlist := RingBuffer.toList_pushBack hpush
        have hpending : s.pending =
            s.buffered ++ₛ (Stream'.cons token s.scanner.scan.scanner.yields) := by
          rw [pending, Scanner.yields_of_scan_ok htoken]
        refine ⟨hmode, rfl, ?_, ⟨[token], hlist.symm⟩, ?_⟩
        · rw [hpending, pending, buffered, hlist, Stream'.append_append_stream]
          rfl
        · intro _ hresult
          cases hresult
          refine ⟨?_, rfl, ?_⟩
          · rw [hpending, hend]
            exact (Stream'.get_append_length s.buffered (Stream'.cons token _)).symm
          · rw [buffered, hlist, List.length_append, hend, List.length_singleton]
      · rename_i fault hfault
        cases h
        refine ⟨hmode, rfl, ?_, List.prefix_refl _, ?_⟩
        · rw [pending, pending, Scanner.yields_of_scan_error hfault]
          rfl
        · intro _ hresult
          cases hresult
    -- Before the end of the buffer, only the cursor moves.
    · rename_i hmore
      rw [← RingBuffer.length_toList] at hmore
      obtain ⟨found, hget, hd⟩ := bind_eq_ok.mp h
      cases hd
      refine ⟨hmode, rfl, rfl, List.prefix_refl _, ?_⟩
      intro _ hresult
      cases hresult
      refine ⟨(get_pending_of_lt ?_).symm, rfl, ?_⟩
      · rw [buffered, RingBuffer.getElem?_toList]
        unfold RingBuffer.get at hget
        split at hget
        · rename_i y hy
          rw [hy, ← Except.ok.inj hget]
        · cases hget
      · show s.read + 1 ≤ s.buffer.toList.length
        rw [buffered] at hread
        omega

/-! ## Edits at the head -/

theorem rewind_eq_ok : s.rewind = .ok s' ↔ s.buffering = true ∧ s' = { s with read := 0 } := by
  unfold rewind
  split
  · rename_i h
    simp [h, eq_comm]
  · rename_i h
    simp [h]

theorem insert_front (h : s.insert 0 x = .ok s') :
    ∃ buffer read, s' = { s with buffer, read } ∧ buffer.toList = x :: s.buffered := by
  obtain ⟨buffer, hpush, hs⟩ := bind_eq_ok.mp h
  cases hs
  exact ⟨_, _, rfl, RingBuffer.toList_pushFront hpush⟩

theorem remove_front (h : s.remove 0 = .ok (x, s')) :
    ∃ buffer read, s' = { s with buffer, read } ∧ s.buffered = x :: buffer.toList := by
  obtain ⟨⟨first, buffer⟩, hpop, hs⟩ := bind_eq_ok.mp h
  cases hs
  exact ⟨_, _, rfl, (RingBuffer.popFront_eq_ok hpop).1⟩

theorem peek?_zero : s.peek? 0 = s.buffered.head? := by
  rw [peek?, ← RingBuffer.getElem?_toList, buffered, List.head?_eq_getElem?]

theorem modify_front (f : Symbol V → Symbol V) (hbuf : s.buffered = x :: rest) :
    ∃ buffer, s.modify 0 f = { s with buffer } ∧ buffer.toList = f x :: rest := by
  have hpeek : s.peek? 0 = some x := by rw [peek?_zero, hbuf, List.head?_cons]
  refine ⟨s.buffer.set 0 (f x), ?_, ?_⟩
  · rw [modify, hpeek]
  · rw [RingBuffer.toList_set, show s.buffer.toList = x :: rest from hbuf, List.set_cons_zero]

/-! ## What the tokens are -/

/-- Whether the ids of all tokens that a stream has still to deliver are of some kind. -/
def Carries (A : SymbolId → Prop) (s : TokenStream V) : Prop := ∀ n, A (s.pending.get n).id

namespace Carries

variable {A : SymbolId → Prop}

theorem of_pending_eq (h : s.Carries A) (hpending : s'.pending = s.pending) : s'.Carries A := by
  intro n
  rw [hpending]
  exact h n

theorem cons (h : s.Carries A) (hx : A x.id) (hpending : s'.pending = Stream'.cons x s.pending) :
    s'.Carries A := by
  intro n
  rw [hpending]
  cases n with
  | zero => exact hx
  | succ n => exact h n

theorem uncons (h : s.Carries A) (hpending : s.pending = Stream'.cons x s'.pending) :
    A x.id ∧ s'.Carries A := by
  unfold Carries at h
  rw [hpending] at h
  exact ⟨h 0, fun n => h (n + 1)⟩

theorem insert (h : s.Carries A) (hx : A x.id) (hs : s.insert 0 x = .ok s') : s'.Carries A := by
  obtain ⟨buffer, read, rfl, hbuffer⟩ := insert_front hs
  exact h.cons hx (pending_of_buffered hbuffer)

theorem remove (h : s.Carries A) (hs : s.remove 0 = .ok (x, s')) : A x.id ∧ s'.Carries A := by
  obtain ⟨buffer, read, rfl, hbuffer⟩ := remove_front hs
  exact h.uncons (pending_of_buffered hbuffer)

theorem peek (h : s.Carries A) (hx : s.peek? 0 = some x) : A x.id := by
  rw [peek?_zero, List.head?_eq_getElem?] at hx
  exact get_pending_of_lt hx ▸ h 0

theorem modify (h : s.Carries A) {f : Symbol V → Symbol V}
    (hf : ∀ x, s.peek? 0 = some x → A (f x).id) : (s.modify 0 f).Carries A := by
  cases hbuf : s.buffered with
  | nil =>
    have hpeek : s.peek? 0 = none := by rw [peek?_zero, hbuf, List.head?_nil]
    rw [TokenStream.modify, hpeek]
    exact h
  | cons x rest =>
    obtain ⟨buffer, hmodify, hbuffer⟩ := modify_front f hbuf
    have hx : A (f x).id := hf x (by rw [peek?_zero, hbuf, List.head?_cons])
    rw [hmodify]
    intro n
    cases n with
    | zero => rwa [get_pending_of_lt (x := f x) (by rw [buffered, hbuffer]; rfl)]
    | succ n =>
      have htail := h (n + 1)
      rw [pending_of_buffered hbuf] at htail
      rw [pending_of_buffered (s := { s with buffer }) hbuffer]
      exact htail

/-- A stream delivers what its scanner has been given, and the end of input. -/
theorem ofScanner {scanner : Scanner V} {window slotBytes : Nat}
    (hs : ofScanner scanner window slotBytes = .ok s)
    (hitems : ∀ token, .ok token ∈ scanner.items → A token.id) (heof : A eof) : s.Carries A := by
  intro n
  rw [(ofScanner_spec hs).1]
  rcases Scanner.get_yieldsFrom scanner.stop scanner.items n with hmem | ⟨pos, hend⟩
  · exact hitems _ hmem
  · rw [Scanner.yields, hend]
    exact heof

end Carries

end TokenStream

end ShiftReduce
