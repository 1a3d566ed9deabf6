import ShiftReduce.Proofs.Stream.Faults

/-!
# Streams are lists with a cursor

A client of a stream need not know of its buffer. The pending tokens are a list; some of the
first are held back, and behind these the scanner is asked. A cursor stands among the tokens
held back, or right behind them.

* `Tape`: the list, and `Tape.Step`, what each operation does to it and answers.
* `Tape.Step.sound`: the cursor stays where it can stand.
* `TokenStream.step_of_perform`: a stream does what the list does.
* `TokenStream.exists_perform`: it does so whenever there is room for a token more.
-/

namespace ShiftReduce

variable {V : Type}

/-! ## Operations -/

/-- What a client asks of a stream. -/
inductive Operation (V : Type) where
  | withLeading (marker : Symbol V)
  | next
  | nextBuffered
  | setBuffering (buffering : Bool)
  | rewind
  | insert (offset : Nat) (token : Symbol V)
  | remove (offset : Nat)
  | peek (offset : Nat)
  /-- Looks at a token and changes it. -/
  | modify (offset : Nat) (f : Symbol V → Symbol V)

/-- What a stream answers. -/
inductive Answer (V : Type) where
  | done
  /-- The token that has been taken out. -/
  | removed (token : Symbol V)
  /-- The token that is held back at an offset, if there is one. -/
  | seen (token : Option (Symbol V))
  | delivered (lexical : List LexicalError) (result : Except ScanError (Symbol V))

def Answer.token? : Answer V → Option (Symbol V)
  | done => none
  | removed token => some token
  | seen token => token
  | delivered _ result => result.toOption

namespace TokenStream

def perform (s : TokenStream V) : Operation V → Checked (Answer V × TokenStream V)
  | .withLeading marker => do return (.done, ← s.withLeading marker)
  | .next => do
    let d ← s.next
    return (.delivered d.lexical d.result, d.stream)
  | .nextBuffered => do
    let d ← s.nextBuffered
    return (.delivered d.lexical d.result, d.stream)
  | .setBuffering buffering => .ok (.done, s.setBuffering buffering)
  | .rewind => do return (.done, ← s.rewind)
  | .insert offset token => do return (.done, ← s.insert offset token)
  | .remove offset => do
    let (token, s) ← s.remove offset
    return (.removed token, s)
  | .peek offset => .ok (.seen (s.peek? offset), s)
  | .modify offset f => .ok (.seen (s.peek? offset), s.modify offset f)

def performAll (s : TokenStream V) :
    List (Operation V) → Checked (List (Answer V) × TokenStream V)
  | [] => .ok ([], s)
  | op :: ops => do
    let (answer, s) ← s.perform op
    let (answers, s) ← s.performAll ops
    return (answer :: answers, s)

end TokenStream

/-! ## The list -/

/-- The pending tokens, how many of them are held back, the cursor and the mode. -/
@[ext]
structure Tape (V : Type) where
  pending : Stream' (Symbol V)
  held : Nat
  cursor : Nat
  buffering : Bool

namespace Tape

variable {t t' : Tape V} {i offset : Nat} {x : Symbol V} {op : Operation V} {answer : Answer V}
  {pulled : List (Except ScanError (Symbol V))} {result : Except ScanError (Symbol V)}

/-- The list before anything has been done to it. -/
def ofScanner (scanner : Scanner V) : Tape V := ⟨scanner.yields, 0, 0, false⟩

/-- The token at an offset, which is seen only if it is held back. -/
def peek? (t : Tape V) (offset : Nat) : Option (Symbol V) :=
  if offset < t.held then some (t.pending.get offset) else none

/-- The list with one token more at an offset. The cursor stays at its token, unless the new one
comes to be right there. -/
def insert (t : Tape V) (offset : Nat) (x : Symbol V) : Tape V :=
  { t with
    pending := t.pending.take offset ++ₛ Stream'.cons x (t.pending.drop offset)
    held := t.held + 1
    cursor := if offset < t.cursor then t.cursor + 1 else t.cursor }

/-- The list without the token at an offset. The cursor stays at its token, unless that is the
one. -/
def erase (t : Tape V) (offset : Nat) : Tape V :=
  { t with
    pending := t.pending.take offset ++ₛ t.pending.drop (offset + 1)
    held := t.held - 1
    cursor := if offset < t.cursor then t.cursor - 1 else t.cursor }

/-- The list with another token at an offset, if the token there is held back. -/
def modify (t : Tape V) (offset : Nat) (f : Symbol V → Symbol V) : Tape V :=
  if offset < t.held then
    { t with
      pending := t.pending.take offset ++ₛ
        Stream'.cons (f (t.pending.get offset)) (t.pending.drop (offset + 1)) }
  else t

/-- The list after a read in passing: its head is gone, unless there was a fault. -/
def afterNext (t : Tape V) : Except ScanError (Symbol V) → Tape V
  | .ok _ => { t with pending := t.pending.tail, held := t.held - 1 }
  | .error _ => t

/-- The list after a buffered read: the cursor is behind a token that is held back, unless there
was a fault. -/
def afterNextBuffered (t : Tape V) : Except ScanError (Symbol V) → Tape V
  | .ok _ => { t with held := max t.held (t.cursor + 1), cursor := t.cursor + 1 }
  | .error _ => t

/-- What comes of asking for the token at a place. A token that is held back is there. Behind
these the scanner is asked, and if it delivers a token, it is the one of the list. -/
inductive Fetches (t : Tape V) (i : Nat) :
    List (Except ScanError (Symbol V)) → List LexicalError → Except ScanError (Symbol V) → Prop
  | held : i < t.held → Fetches t i [] [] (.ok (t.pending.get i))
  | scanned {pulled : List (Except ScanError (Symbol V))} {faults : List LexicalError}
      {result : Except ScanError (Symbol V)} : i = t.held → Request pulled faults result →
      (∀ token, result = .ok token → token = t.pending.get i) → Fetches t i pulled faults result

/-- What an operation does to the list, with the items that it pulls from the scanner. -/
inductive Step (t : Tape V) :
    Operation V → List (Except ScanError (Symbol V)) → Answer V → Tape V → Prop
  | withLeading (marker : Symbol V) : Step t (.withLeading marker) [] .done (t.insert t.held marker)
  | next {pulled : List (Except ScanError (Symbol V))} {faults : List LexicalError}
      {result : Except ScanError (Symbol V)} : t.buffering = false →
      t.Fetches 0 pulled faults result →
      Step t .next pulled (.delivered faults result) (t.afterNext result)
  | nextBuffered {pulled : List (Except ScanError (Symbol V))} {faults : List LexicalError}
      {result : Except ScanError (Symbol V)} : t.buffering = true →
      t.Fetches t.cursor pulled faults result →
      Step t .nextBuffered pulled (.delivered faults result) (t.afterNextBuffered result)
  | setBuffering (buffering : Bool) :
      Step t (.setBuffering buffering) [] .done { t with buffering, cursor := 0 }
  | rewind : t.buffering = true → Step t .rewind [] .done { t with cursor := 0 }
  | insert {offset : Nat} (token : Symbol V) : offset ≤ 1 → offset ≤ t.held →
      Step t (.insert offset token) [] .done (t.insert offset token)
  | remove {offset : Nat} : offset ≤ 1 → offset < t.held →
      Step t (.remove offset) [] (.removed (t.pending.get offset)) (t.erase offset)
  | peek (offset : Nat) : Step t (.peek offset) [] (.seen (t.peek? offset)) t
  | modify (offset : Nat) (f : Symbol V → Symbol V) :
      Step t (.modify offset f) [] (.seen (t.peek? offset)) (t.modify offset f)

/-- What operations do to the list one after the other. -/
inductive Runs : Tape V → List (Operation V) → List (Except ScanError (Symbol V)) →
    List (Answer V) → Tape V → Prop
  | none {t : Tape V} : Runs t [] [] [] t
  | step {t t' t'' : Tape V} {op : Operation V} {ops : List (Operation V)}
      {pulled more : List (Except ScanError (Symbol V))} {answer : Answer V}
      {answers : List (Answer V)} : t.Step op pulled answer t' → Runs t' ops more answers t'' →
      Runs t (op :: ops) (pulled ++ more) (answer :: answers) t''

/-! ### The cursor -/

/-- The cursor is at a token that is held back, or right behind these. In passing it is at the
first. -/
structure Sound (t : Tape V) : Prop where
  cursor_le : t.cursor ≤ t.held
  passing : t.buffering = false → t.cursor = 0

theorem sound_ofScanner (scanner : Scanner V) : (ofScanner scanner).Sound :=
  ⟨Nat.le_refl _, fun _ => rfl⟩

theorem Sound.insert (h : t.Sound) (offset : Nat) (x : Symbol V) : (t.insert offset x).Sound := by
  obtain ⟨hle, hpassing⟩ := h
  constructor
  · simp only [Tape.insert]
    split <;> omega
  · intro hmode
    have hzero := hpassing hmode
    simp [Tape.insert, hzero]

theorem Sound.erase (h : t.Sound) (hheld : offset < t.held) : (t.erase offset).Sound := by
  obtain ⟨hle, hpassing⟩ := h
  constructor
  · simp only [Tape.erase]
    split <;> omega
  · intro hmode
    have hzero := hpassing hmode
    simp [Tape.erase, hzero]

/-- The cursor stays where it can stand. -/
theorem Step.sound (h : t.Step op pulled answer t') (hsound : t.Sound) : t'.Sound := by
  obtain ⟨hle, hpassing⟩ := hsound
  -- Reading ahead holds back what the cursor passes, and edits take the cursor along.
  cases h with
  | withLeading marker => exact Sound.insert ⟨hle, hpassing⟩ _ _
  | @next pulled faults result hmode hfetches =>
    have hzero := hpassing hmode
    cases result with
    | ok token => exact ⟨by simp [afterNext, hzero], fun _ => hzero⟩
    | error fault => exact ⟨hle, hpassing⟩
  | @nextBuffered pulled faults result hmode hfetches =>
    cases result with
    | ok token =>
      refine ⟨Nat.le_max_right _ _, ?_⟩
      intro hpass
      rw [show t.buffering = false from hpass] at hmode
      cases hmode
    | error fault => exact ⟨hle, hpassing⟩
  | setBuffering buffering => exact ⟨Nat.zero_le _, fun _ => rfl⟩
  | rewind hmode => exact ⟨Nat.zero_le _, fun _ => rfl⟩
  | insert token hone hheld => exact Sound.insert ⟨hle, hpassing⟩ _ _
  | remove hone hheld => exact Sound.erase ⟨hle, hpassing⟩ hheld
  | peek offset => exact ⟨hle, hpassing⟩
  | modify offset f =>
    unfold Tape.modify
    split
    · exact ⟨hle, hpassing⟩
    · exact ⟨hle, hpassing⟩

theorem get_take_append (tokens rest : Stream' (Symbol V)) (n k : Nat) :
    (tokens.take n ++ₛ rest).get (n + k) = rest.get k := by
  have hget := Stream'.get_append_right k (tokens.take n) rest
  rwa [Stream'.length_take] at hget

theorem get_take_append_of_lt (tokens rest : Stream' (Symbol V)) {n i : Nat} (h : i < n) :
    (tokens.take n ++ₛ rest).get i = tokens.get i := by
  rw [Stream'.get_append_left _ _ _ (by rwa [Stream'.length_take]), Stream'.take_get]

/-- The token that is delivered next stays so, unless one is inserted right before it. -/
theorem get_insert (t : Tape V) (offset : Nat) (x : Symbol V) :
    (t.insert offset x).pending.get (t.insert offset x).cursor =
      if offset = t.cursor then x else t.pending.get t.cursor := by
  simp only [insert]
  rcases Nat.lt_trichotomy offset t.cursor with hlt | rfl | hgt
  · obtain ⟨k, hk⟩ := Nat.exists_eq_add_of_le (Nat.le_of_lt hlt)
    rw [if_pos hlt, if_neg (Nat.ne_of_lt hlt), hk, Nat.add_assoc, get_take_append,
      Stream'.get_succ_cons, Stream'.get_drop]
  · rw [if_neg (Nat.lt_irrefl _), if_pos rfl]
    exact get_take_append _ _ _ 0
  · rw [if_neg (by omega), if_neg (by omega), get_take_append_of_lt _ _ hgt]

/-- The token that is delivered next stays so, unless it is the one that is taken out: then its
successor is. -/
theorem get_erase (t : Tape V) (offset : Nat) :
    (t.erase offset).pending.get (t.erase offset).cursor =
      t.pending.get (if offset = t.cursor then t.cursor + 1 else t.cursor) := by
  simp only [erase]
  rcases Nat.lt_trichotomy offset t.cursor with hlt | rfl | hgt
  · obtain ⟨k, hk⟩ := Nat.exists_eq_add_of_le (show offset + 1 ≤ t.cursor from hlt)
    rw [if_pos hlt, if_neg (Nat.ne_of_lt hlt), hk, show offset + 1 + k - 1 = offset + k by omega,
      get_take_append, Stream'.get_drop]
  · rw [if_neg (Nat.lt_irrefl _), if_pos rfl]
    exact (get_take_append _ _ _ 0).trans (Stream'.get_drop _ _ _)
  · rw [if_neg (by omega), if_neg (by omega), get_take_append_of_lt _ _ hgt]

end Tape

/-! ## Streams -/

namespace TokenStream

variable {s s' : TokenStream V} {d : Delivery V} {x : Symbol V} {offset : Nat}
  {op : Operation V} {answer : Answer V}

def tape (s : TokenStream V) : Tape V := ⟨s.pending, s.buffered.length, s.read, s.buffering⟩

/-- An edit of what is held back is one of the pending tokens. -/
theorem tape_edit {buffer : RingBuffer (Symbol V)} {i n : Nat} {edit : List (Symbol V)}
    (h : buffer.toList = s.buffered.take i ++ edit ++ s.buffered.drop n)
    (hi : i ≤ s.buffered.length) (hn : n ≤ s.buffered.length) (read : Nat) :
    ({ s with buffer, read } : TokenStream V).tape =
      ⟨s.pending.take i ++ₛ (edit ++ₛ s.pending.drop n),
        i + edit.length + (s.buffered.length - n), read, s.buffering⟩ := by
  refine Tape.ext ?_ ?_ rfl rfl
  · show buffer.toList ++ₛ s.scanner.yields = s.pending.take i ++ₛ (edit ++ₛ s.pending.drop n)
    rw [pending, Stream'.take_append_of_le_length _ _ _ hi,
      Stream'.drop_append_of_le_length _ _ _ hn, ← Stream'.append_append_stream,
      ← Stream'.append_append_stream, ← h]
  · show buffer.toList.length = i + edit.length + (s.buffered.length - n)
    rw [h, List.length_append, List.length_append, List.length_take, List.length_drop]
    omega

/-! ### Edits of the buffer -/

theorem insertNear_eq_ok {α : Type} {buffer buffer' : RingBuffer α} {x : α} {offset : Nat}
    (h : insertNear buffer x offset = .ok buffer') :
    offset ≤ 1 ∧ offset ≤ buffer.toList.length ∧
      buffer'.toList = buffer.toList.take offset ++ [x] ++ buffer.toList.drop offset := by
  match offset with
  | 0 => exact ⟨Nat.zero_le _, Nat.zero_le _, RingBuffer.toList_pushFront h⟩
  | 1 =>
    obtain ⟨⟨first, rest⟩, hpop, h⟩ := bind_eq_ok.mp h
    obtain ⟨second, hsecond, h⟩ := bind_eq_ok.mp h
    have hlist := (RingBuffer.popFront_eq_ok hpop).1
    rw [RingBuffer.toList_pushFront h, RingBuffer.toList_pushFront hsecond, hlist]
    exact ⟨Nat.le_refl _, by simp, rfl⟩
  | offset + 2 => cases h

theorem removeNear_eq_ok {α : Type} {buffer buffer' : RingBuffer α} {x : α} {offset : Nat}
    (h : removeNear buffer offset = .ok (x, buffer')) :
    offset ≤ 1 ∧ buffer.toList[offset]? = some x ∧
      buffer'.toList = buffer.toList.take offset ++ [] ++ buffer.toList.drop (offset + 1) := by
  match offset with
  | 0 =>
    have hlist := (RingBuffer.popFront_eq_ok h).1
    rw [hlist]
    exact ⟨Nat.zero_le _, rfl, rfl⟩
  | 1 =>
    obtain ⟨⟨first, rest⟩, hpop, h⟩ := bind_eq_ok.mp h
    obtain ⟨⟨second, rest'⟩, hpop', h⟩ := bind_eq_ok.mp h
    obtain ⟨buffer, hpush, h⟩ := bind_eq_ok.mp h
    cases h
    have hlist := (RingBuffer.popFront_eq_ok hpop).1
    rw [(RingBuffer.popFront_eq_ok hpop').1] at hlist
    rw [RingBuffer.toList_pushFront hpush, hlist]
    exact ⟨Nat.le_refl _, rfl, rfl⟩
  | offset + 2 => cases h

/-! ### One operation -/

theorem peek?_eq (s : TokenStream V) (offset : Nat) : s.peek? offset = s.tape.peek? offset := by
  rw [peek?, ← RingBuffer.getElem?_toList]
  show s.buffered[offset]? = _
  unfold Tape.peek?
  split
  · rename_i hlt
    have hsome := List.getElem?_eq_getElem (show offset < s.buffered.length from hlt)
    rw [hsome, ← get_pending_of_lt hsome]
    rfl
  · rename_i hge
    exact List.getElem?_eq_none (Nat.le_of_not_lt hge)

theorem tape_withLeading (h : s.withLeading x = .ok s') (hsound : s.tape.Sound) :
    s'.tape = s.tape.insert s.buffered.length x := by
  obtain ⟨buffer, hpush, hs⟩ := bind_eq_ok.mp h
  cases hs
  have hlist : buffer.toList = s.buffered.take s.buffered.length ++ [x] ++
      s.buffered.drop s.buffered.length := by
    rw [RingBuffer.toList_pushBack hpush, List.take_length, List.drop_length, List.append_nil]
    rfl
  refine (tape_edit hlist (Nat.le_refl _) (Nat.le_refl _) s.read).trans (Tape.ext rfl ?_ ?_ rfl)
  · show s.buffered.length + 1 + (s.buffered.length - s.buffered.length) = s.buffered.length + 1
    omega
  · exact (if_neg (Nat.not_lt.mpr hsound.cursor_le)).symm

theorem tape_insert (h : s.insert offset x = .ok s') :
    offset ≤ 1 ∧ offset ≤ s.buffered.length ∧ s'.tape = s.tape.insert offset x := by
  obtain ⟨buffer, hinsert, hs⟩ := bind_eq_ok.mp h
  cases hs
  obtain ⟨hone, hle, hlist⟩ := insertNear_eq_ok hinsert
  refine ⟨hone, hle, (tape_edit hlist hle hle _).trans (Tape.ext rfl ?_ rfl rfl)⟩
  show offset + 1 + (s.buffered.length - offset) = s.buffered.length + 1
  have : offset ≤ s.buffered.length := hle
  omega

theorem tape_remove (h : s.remove offset = .ok (x, s')) :
    offset ≤ 1 ∧ offset < s.buffered.length ∧ x = s.pending.get offset ∧
      s'.tape = s.tape.erase offset := by
  obtain ⟨⟨found, buffer⟩, hremove, hs⟩ := bind_eq_ok.mp h
  cases hs
  obtain ⟨hone, hfound, hlist⟩ := removeNear_eq_ok hremove
  have hlt : offset < s.buffered.length := (List.getElem?_eq_some_iff.mp hfound).1
  refine ⟨hone, hlt, (get_pending_of_lt hfound).symm,
    (tape_edit hlist (Nat.le_of_lt hlt) hlt _).trans (Tape.ext rfl ?_ rfl rfl)⟩
  show offset + 0 + (s.buffered.length - (offset + 1)) = s.buffered.length - 1
  omega

theorem tape_modify (s : TokenStream V) (offset : Nat) (f : Symbol V → Symbol V) :
    (s.modify offset f).tape = s.tape.modify offset f := by
  have hpeek := s.peek?_eq offset
  by_cases hlt : offset < s.buffered.length
  · have hsome : s.peek? offset = some (s.pending.get offset) := hpeek.trans (if_pos hlt)
    have hlist : (s.buffer.set offset (f (s.pending.get offset))).toList =
        s.buffered.take offset ++ [f (s.pending.get offset)] ++ s.buffered.drop (offset + 1) := by
      rw [RingBuffer.toList_set, List.set_eq_take_append_cons_drop,
        if_pos (show offset < s.buffer.toList.length from hlt), List.append_assoc]
      rfl
    rw [modify, hsome, Tape.modify, if_pos (show offset < s.tape.held from hlt)]
    refine (tape_edit hlist (Nat.le_of_lt hlt) hlt s.read).trans (Tape.ext rfl ?_ rfl rfl)
    show offset + 1 + (s.buffered.length - (offset + 1)) = s.buffered.length
    omega
  · have hnone : s.peek? offset = none := hpeek.trans (if_neg hlt)
    rw [modify, hnone, Tape.modify, if_neg (show ¬ offset < s.tape.held from hlt)]

/-- A read in passing takes the head of the list. -/
theorem tape_next (h : s.next = .ok d) :
    s.buffering = false ∧ ∃ pulled, s.scanner.items = pulled ++ d.stream.scanner.items ∧
      s.tape.Fetches 0 pulled d.lexical d.result ∧
      d.stream.tape = s.tape.afterNext d.result := by
  obtain ⟨hmode, -, -, hhead⟩ := next_spec h
  refine ⟨hmode, ?_⟩
  unfold next at h
  rw [if_neg (by simp [hmode])] at h
  split at h
  -- With nothing held back, the scanner is asked.
  · rename_i hempty
    have hnil : s.buffered = [] := s.buffer.isEmpty_iff_toList.mp hempty
    have hheld : s.buffered.length = 0 := congrArg List.length hnil
    cases h
    obtain ⟨pulled, hitems, hrequest⟩ := s.scanner.scan_request
    refine ⟨pulled, hitems, .scanned hheld.symm hrequest ?_, ?_⟩
    · intro token htoken
      rw [show s.tape.pending = _ from hhead token htoken]
      rfl
    · cases hresult : s.scanner.scan.result with
      | ok token =>
        refine Tape.ext ?_ ?_ rfl rfl
        · show _ = s.pending.tail
          rw [hhead token hresult]
          rfl
        · show s.buffered.length = s.buffered.length - 1
          omega
      | error fault =>
        refine Tape.ext ?_ rfl rfl rfl
        show s.buffered ++ₛ s.scanner.scan.scanner.yields = s.pending
        rw [pending, Scanner.yields_of_scan_error hresult]
  · obtain ⟨⟨first, buffer⟩, hpop, hd⟩ := bind_eq_ok.mp h
    cases hd
    have hlist : s.buffered = first :: buffer.toList := (RingBuffer.popFront_eq_ok hpop).1
    have hfirst : first = s.pending.get 0 := by
      rw [hhead first rfl]
      rfl
    have hheld : s.buffered.length = buffer.toList.length + 1 := by rw [hlist, List.length_cons]
    refine ⟨[], rfl, ?_, Tape.ext ?_ ?_ rfl rfl⟩
    · rw [hfirst]
      exact .held (show 0 < s.buffered.length by omega)
    · show _ = s.pending.tail
      rw [hhead first rfl]
      rfl
    · show buffer.toList.length = s.buffered.length - 1
      omega

/-- A buffered read delivers the token at the cursor. -/
theorem tape_nextBuffered (h : s.nextBuffered = .ok d) (hsound : s.tape.Sound) :
    s.buffering = true ∧ ∃ pulled, s.scanner.items = pulled ++ d.stream.scanner.items ∧
      s.tape.Fetches s.read pulled d.lexical d.result ∧
      d.stream.tape = s.tape.afterNextBuffered d.result := by
  have hle : s.read ≤ s.buffered.length := hsound.cursor_le
  obtain ⟨hmode, -, hpending, -, hread⟩ := nextBuffered_spec h hle
  have hbuffering : s.buffering = true := by
    unfold nextBuffered at h
    split at h
    · cases h
    · rename_i hmode
      simpa using hmode
  refine ⟨hbuffering, ?_⟩
  unfold nextBuffered at h
  rw [if_neg (by simp [hbuffering])] at h
  split at h
  -- At the end of what is held back, the scanner is asked.
  · rename_i hend
    have hheld : s.read = s.buffered.length := hend.trans s.buffer.length_toList.symm
    obtain ⟨pulled, hitems, hrequest⟩ := s.scanner.scan_request
    dsimp only at h
    split at h
    · rename_i token htoken
      obtain ⟨buffer, hpush, hd⟩ := bind_eq_ok.mp h
      cases hd
      rw [htoken] at hrequest
      refine ⟨pulled, hitems, .scanned hheld hrequest ?_, Tape.ext hpending ?_ rfl rfl⟩
      · rintro _ ⟨⟩
        exact (hread token rfl).1
      · show buffer.toList.length = max s.buffered.length (s.read + 1)
        rw [RingBuffer.toList_pushBack hpush, List.length_append, List.length_singleton, hheld]
        exact (Nat.max_eq_right (Nat.le_succ _)).symm
    · rename_i fault hfault
      cases h
      rw [hfault] at hrequest
      exact ⟨pulled, hitems, .scanned hheld hrequest (fun _ h => nomatch h),
        Tape.ext hpending rfl rfl rfl⟩
  · rename_i hmore
    rw [← s.buffer.length_toList] at hmore
    obtain ⟨token, hget, hd⟩ := bind_eq_ok.mp h
    cases hd
    have hlt : s.read < s.buffered.length := Nat.lt_of_le_of_ne hle hmore
    refine ⟨[], rfl, ?_, Tape.ext rfl ?_ rfl rfl⟩
    · rw [(hread token rfl).1]
      exact .held hlt
    · exact (Nat.max_eq_left hlt).symm

/-- What a stream does is what the list does. -/
theorem step_of_perform (h : s.perform op = .ok (answer, s')) (hsound : s.tape.Sound) :
    ∃ pulled, s.scanner.items = pulled ++ s'.scanner.items ∧
      s.tape.Step op pulled answer s'.tape := by
  -- Only the two reads pull items out of the scanner.
  cases op with
  | withLeading marker =>
    obtain ⟨found, hfound, hs⟩ := bind_eq_ok.mp h
    cases hs
    refine ⟨[], by rw [scanner_withLeading hfound, List.nil_append], ?_⟩
    rw [tape_withLeading hfound hsound]
    exact .withLeading marker
  | next =>
    obtain ⟨d, hd, hs⟩ := bind_eq_ok.mp h
    cases hs
    obtain ⟨hmode, pulled, hitems, hfetches, htape⟩ := tape_next hd
    exact ⟨pulled, hitems, htape ▸ .next hmode hfetches⟩
  | nextBuffered =>
    obtain ⟨d, hd, hs⟩ := bind_eq_ok.mp h
    cases hs
    obtain ⟨hmode, pulled, hitems, hfetches, htape⟩ := tape_nextBuffered hd hsound
    exact ⟨pulled, hitems, htape ▸ .nextBuffered hmode hfetches⟩
  | setBuffering buffering =>
    cases h
    exact ⟨[], rfl, .setBuffering buffering⟩
  | rewind =>
    obtain ⟨found, hfound, hs⟩ := bind_eq_ok.mp h
    cases hs
    obtain ⟨hmode, rfl⟩ := rewind_eq_ok.mp hfound
    exact ⟨[], rfl, .rewind hmode⟩
  | insert offset token =>
    obtain ⟨found, hfound, hs⟩ := bind_eq_ok.mp h
    cases hs
    obtain ⟨hone, hle, htape⟩ := tape_insert hfound
    exact ⟨[], by rw [scanner_insert hfound, List.nil_append],
      htape ▸ .insert token hone hle⟩
  | remove offset =>
    obtain ⟨⟨token, found⟩, hfound, hs⟩ := bind_eq_ok.mp h
    cases hs
    obtain ⟨hone, hlt, rfl, htape⟩ := tape_remove hfound
    exact ⟨[], by rw [scanner_remove hfound, List.nil_append], htape ▸ .remove hone hlt⟩
  | peek offset =>
    cases h
    rw [s.peek?_eq]
    exact ⟨[], rfl, .peek offset⟩
  | modify offset f =>
    cases h
    rw [s.peek?_eq, tape_modify]
    exact ⟨[], by rw [scanner_modify, List.nil_append], .modify offset f⟩

/-! ### Performing an operation -/

/-- Whether there is room for a token more. -/
def HasRoom (s : TokenStream V) : Prop := s.buffer.length + 1 < s.buffer.capacity

theorem exists_insertNear {α : Type} {buffer : RingBuffer α}
    (hroom : buffer.length + 1 < buffer.capacity) (x : α) (hone : offset ≤ 1)
    (hle : offset ≤ buffer.length) : ∃ buffer', insertNear buffer x offset = .ok buffer' := by
  match offset with
  | 0 => exact RingBuffer.exists_pushFront hroom x
  | 1 =>
    obtain ⟨first, rest, hpop⟩ := RingBuffer.exists_popFront (b := buffer) (by omega)
    have hlength := RingBuffer.length_popFront hpop
    have hcapacity := (RingBuffer.popFront_eq_ok hpop).2
    obtain ⟨second, hsecond⟩ := RingBuffer.exists_pushFront (b := rest) (by omega) x
    have hlength' := RingBuffer.length_pushFront hsecond
    have hcapacity' := RingBuffer.capacity_pushFront hsecond
    obtain ⟨buffer', hpush⟩ := RingBuffer.exists_pushFront (b := second) (by omega) first
    refine ⟨buffer', ?_⟩
    simp only [insertNear, hpop, ok_bind, hsecond, hpush]
  | offset + 2 => omega

theorem exists_removeNear {α : Type} {buffer : RingBuffer α} (hone : offset ≤ 1)
    (hlt : offset < buffer.length) : ∃ r, removeNear buffer offset = .ok r := by
  match offset with
  | 0 =>
    obtain ⟨first, rest, hpop⟩ := RingBuffer.exists_popFront hlt
    exact ⟨_, hpop⟩
  | 1 =>
    obtain ⟨first, rest, hpop⟩ := RingBuffer.exists_popFront (b := buffer) (by omega)
    have hlength := RingBuffer.length_popFront hpop
    have hcapacity := (RingBuffer.popFront_eq_ok hpop).2
    obtain ⟨second, rest', hpop'⟩ := RingBuffer.exists_popFront (b := rest) (by omega)
    have hlength' := RingBuffer.length_popFront hpop'
    have hcapacity' := (RingBuffer.popFront_eq_ok hpop').2
    have hmost := buffer.length_lt_capacity
    obtain ⟨buffer', hpush⟩ := RingBuffer.exists_pushFront (b := rest') (by omega) first
    refine ⟨(second, buffer'), ?_⟩
    simp only [removeNear, hpop, ok_bind, hpop', hpush, pure_ok]
  | offset + 2 => omega

theorem exists_nextBuffered (hroom : s.HasRoom) (hmode : s.buffering = true)
    (hle : s.read ≤ s.buffered.length) : ∃ d, s.nextBuffered = .ok d := by
  rw [nextBuffered, if_neg (by simp [hmode])]
  by_cases hend : s.read = s.buffer.length
  · rw [if_pos hend]
    dsimp only
    cases s.scanner.scan.result with
    | error fault => exact ⟨_, rfl⟩
    | ok token =>
      obtain ⟨buffer, hpush⟩ := RingBuffer.exists_pushBack hroom token
      dsimp only
      rw [hpush]
      exact ⟨_, rfl⟩
  · rw [if_neg hend]
    have hlength : s.buffered.length = s.buffer.length := s.buffer.length_toList
    have hsome := s.buffer.isSome_get? (show s.read < s.buffer.length by omega)
    obtain ⟨token, htoken⟩ := Option.isSome_iff_exists.mp hsome
    rw [RingBuffer.get, htoken]
    exact ⟨_, rfl⟩

/-- A stream with room for a token more performs every operation that the list allows. -/
theorem exists_perform {pulled : List (Except ScanError (Symbol V))} {t : Tape V}
    (h : s.tape.Step op pulled answer t) (hsound : s.tape.Sound) (hroom : s.HasRoom) :
    ∃ r, s.perform op = .ok r := by
  have hlength : s.buffered.length = s.buffer.length := s.buffer.length_toList
  -- Room is needed where a token is added: by a marker, by an insertion and by reading ahead.
  cases h with
  | withLeading marker =>
    obtain ⟨buffer, hpush⟩ := RingBuffer.exists_pushBack hroom marker
    simp only [perform, TokenStream.withLeading, hpush]
    exact ⟨_, rfl⟩
  | next hmode hfetches =>
    obtain ⟨d, hd⟩ := exists_next hmode
    simp only [perform, hd]
    exact ⟨_, rfl⟩
  | nextBuffered hmode hfetches =>
    obtain ⟨d, hd⟩ := exists_nextBuffered hroom hmode hsound.cursor_le
    simp only [perform, hd]
    exact ⟨_, rfl⟩
  | setBuffering buffering => exact ⟨_, rfl⟩
  | rewind hmode =>
    simp only [perform, rewind_eq_ok.mpr ⟨hmode, rfl⟩]
    exact ⟨_, rfl⟩
  | @insert offset token hone hheld =>
    have hle : offset ≤ s.buffer.length := hlength ▸ hheld
    obtain ⟨buffer, hinsert⟩ := exists_insertNear hroom token hone hle
    simp only [perform, TokenStream.insert, hinsert]
    exact ⟨_, rfl⟩
  | @remove offset hone hheld =>
    have hlt : offset < s.buffer.length := hlength ▸ hheld
    obtain ⟨⟨token, buffer⟩, hremove⟩ := exists_removeNear hone hlt
    simp only [perform, TokenStream.remove, hremove]
    exact ⟨_, rfl⟩
  | peek offset => exact ⟨_, rfl⟩
  | modify offset f => exact ⟨_, rfl⟩

/-! ### Operations one after the other -/

/-- Any operations do to a stream what they do to the list. -/
theorem runs_of_performAll {ops : List (Operation V)} {answers : List (Answer V)}
    (h : s.performAll ops = .ok (answers, s')) (hsound : s.tape.Sound) :
    s'.tape.Sound ∧ ∃ pulled, s.scanner.items = pulled ++ s'.scanner.items ∧
      s.tape.Runs ops pulled answers s'.tape := by
  induction ops generalizing s answers with
  | nil =>
    cases h
    exact ⟨hsound, [], rfl, .none⟩
  | cons op ops ih =>
    obtain ⟨⟨answer, s₁⟩, hop, h⟩ := bind_eq_ok.mp h
    obtain ⟨⟨rest, s₂⟩, hops, h⟩ := bind_eq_ok.mp h
    cases h
    obtain ⟨pulled, hitems, hstep⟩ := step_of_perform hop hsound
    obtain ⟨hsound', more, hmore, hruns⟩ := ih hops (hstep.sound hsound)
    refine ⟨hsound', pulled ++ more, ?_, .step hstep hruns⟩
    rw [hitems, hmore, List.append_assoc]

theorem tape_ofScanner {scanner : Scanner V} {window slotBytes : Nat}
    (h : ofScanner scanner window slotBytes = .ok s) : s.tape = .ofScanner scanner := by
  obtain ⟨hpending, -, hmode, hnil⟩ := ofScanner_spec h
  simp only [ofScanner, bind_eq_ok] at h
  obtain ⟨capacity, _, buffer, _, hs⟩ := h
  cases hs
  exact Tape.ext hpending (congrArg List.length hnil) rfl rfl

/-- A stream is a list with a cursor. Any operations that it performs answer and change it as they
do the list, and they pull from its scanner what the list asks for. The cursor is at a token that
is held back, or right behind these; an insertion or a removal leaves it at its token, unless it
is right there. With room for a token more, every operation that the list allows is performed. -/
theorem stream_is_tape {scanner : Scanner V} {window slotBytes : Nat}
    {ops : List (Operation V)} {answers : List (Answer V)}
    (hopen : ofScanner scanner window slotBytes = .ok s)
    (h : s.performAll ops = .ok (answers, s')) :
    (∃ pulled, scanner.items = pulled ++ s'.scanner.items ∧
      (Tape.ofScanner scanner).Runs ops pulled answers s'.tape) ∧
    s'.read ≤ s'.buffered.length ∧
    (∀ offset x s'', s'.insert offset x = .ok s'' →
      s''.pending.get s''.read = if offset = s'.read then x else s'.pending.get s'.read) ∧
    (∀ offset x s'', s'.remove offset = .ok (x, s'') →
      s''.pending.get s''.read =
        s'.pending.get (if offset = s'.read then s'.read + 1 else s'.read)) ∧
    ∀ op, s'.HasRoom → ((∃ r, s'.perform op = .ok r) ↔
      ∃ pulled answer t, s'.tape.Step op pulled answer t) := by
  have htape := tape_ofScanner hopen
  obtain ⟨hsound, pulled, hitems, hruns⟩ :=
    runs_of_performAll h (htape ▸ Tape.sound_ofScanner scanner)
  rw [htape] at hruns
  rw [scanner_ofScanner hopen] at hitems
  refine ⟨⟨pulled, hitems, hruns⟩, hsound.cursor_le, ?_, ?_, ?_⟩
  · intro offset x s'' hinsert
    have hafter := s'.tape.get_insert offset x
    rwa [← (tape_insert hinsert).2.2] at hafter
  · intro offset x s'' hremove
    have hafter := s'.tape.get_erase offset
    rwa [← (tape_remove hremove).2.2.2] at hafter
  · intro op hroom
    constructor
    · rintro ⟨⟨answer, s''⟩, hop⟩
      obtain ⟨pulled, -, hstep⟩ := step_of_perform hop hsound
      exact ⟨pulled, answer, _, hstep⟩
    · rintro ⟨pulled, answer, t, hstep⟩
      exact exists_perform hstep hsound hroom

/-- Three tokens, with a blot behind the first, and a fault behind the last. -/
def blottedScanner : Scanner Unit :=
  .ofItems [.ok (.empty 1 .zero .zero), .error (.lexical ⟨.zero, "blot"⟩),
    .ok (.empty 2 .zero .zero), .ok (.empty 3 .zero .zero), .error (.io "lost")]

/-- Reads ahead, edits behind the cursor and at it, replays, and reads on in passing. -/
def edits : List (Operation Unit) :=
  [.setBuffering true, .nextBuffered, .nextBuffered, .insert 1 (.empty 4 .zero .zero),
    .nextBuffered, .rewind, .remove 0, .insert 0 (.empty 5 .zero .zero), .nextBuffered, .remove 1,
    .nextBuffered, .nextBuffered, .nextBuffered, .peek 0, .peek 3, .setBuffering false, .next]

/-- One insertion leaves the cursor at its token, another comes to be right there, and a removal
uncovers the next token. -/
theorem stream_is_tape_edited : ∃ s s' : TokenStream Unit, ∃ answers pulled,
    ofScanner blottedScanner 3 12 = .ok s ∧ s.performAll edits = .ok (answers, s') ∧
      (answers.filterMap Answer.token?).map Symbol.id = [1, 2, 3, 1, 5, 4, 2, 3, 5, 5] ∧
      blottedScanner.items = pulled ++ s'.scanner.items ∧
      (Tape.ofScanner blottedScanner).Runs edits pulled answers s'.tape ∧
      s'.read ≤ s'.buffered.length := by
  obtain ⟨s, hopen⟩ : ∃ s, ofScanner blottedScanner 3 12 = .ok s := ⟨_, rfl⟩
  obtain ⟨⟨answers, s'⟩, h, htokens⟩ := exists_ok_of_any
    (show (s.performAll edits).toOption.any (fun r => decide
      ((r.1.filterMap Answer.token?).map Symbol.id = [1, 2, 3, 1, 5, 4, 2, 3, 5, 5])) = true by
        cases hopen
        decide +kernel)
  obtain ⟨⟨pulled, hitems, hruns⟩, hcursor, -⟩ := stream_is_tape hopen h
  exact ⟨s, s', answers, pulled, hopen, h, of_decide_eq_true htokens, hitems, hruns, hcursor⟩

end TokenStream

end ShiftReduce
