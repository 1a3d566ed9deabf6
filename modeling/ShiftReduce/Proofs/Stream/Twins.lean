import ShiftReduce.Parser.Simulation
import ShiftReduce.Proofs.Agreement
import ShiftReduce.RingBuffer.Lemmas

/-!
# Streams that cannot be told apart

The cursors of a ring buffer run round its array, and where they are depends on all that has been
pushed and taken out. No operation answers with that. So two buffers of one capacity that hold the
same items answer alike, forever, and so do two streams that differ in nothing else.

* `RingBuffer.Twins` and `TokenStream.Twins`: buffers and streams that cannot be told apart.
* `insert`, `remove`, `next`, `nextBuffered`, …: every operation fails on both streams or on
  neither, delivers the same, and leaves streams that cannot be told apart.
* `Simulation.runTokens_twins`: nor can simulations tell them apart.
* `TokenStream.Interchangeable`: what recovery asks of streams that take the place of each other.
-/

namespace ShiftReduce

namespace RingBuffer

variable {α : Type} {b b' : RingBuffer α}

/-- Buffers with the same capacity and the same items. The cursors may be elsewhere. -/
structure Twins (b b' : RingBuffer α) : Prop where
  toList_eq : b'.toList = b.toList
  capacity_eq : b'.capacity = b.capacity

namespace Twins

theorem refl (b : RingBuffer α) : b.Twins b := ⟨rfl, rfl⟩

theorem symm (h : b.Twins b') : b'.Twins b := ⟨h.toList_eq.symm, h.capacity_eq.symm⟩

theorem length_eq (h : b.Twins b') : b'.length = b.length := by
  rw [← length_toList, ← length_toList, h.toList_eq]

theorem get?_eq (h : b.Twins b') (index : Nat) : b'.get? index = b.get? index := by
  rw [← getElem?_toList, ← getElem?_toList, h.toList_eq]

theorem isEmpty_eq (h : b.Twins b') : b'.isEmpty = b.isEmpty := by
  rw [Bool.eq_iff_iff, isEmpty_iff, isEmpty_iff, h.length_eq]

theorem get_eq (h : b.Twins b') (index : Nat) : b'.get index = b.get index := by
  rw [get, get, h.get?_eq, h.length_eq]

theorem set (h : b.Twins b') (index : Nat) (x : α) : (b.set index x).Twins (b'.set index x) := by
  constructor
  · rw [toList_set, toList_set, h.toList_eq]
  · rw [capacity_set, capacity_set, h.capacity_eq]

/-- A push at either end. -/
theorem push (h : b.Twins b') {push : RingBuffer α → Checked (RingBuffer α)}
    (grow : List α → List α)
    (herror : ∀ b e, push b = .error e ↔ b.length + 1 = b.capacity ∧ e = .ringFull)
    (hok : ∀ b r, push b = .ok r → r.toList = grow b.toList ∧ r.capacity = b.capacity) :
    Agree Twins (push b) (push b') := by
  cases hpush : push b with
  | error e =>
    have herror' := (herror b e).mp hpush
    rw [← h.length_eq, ← h.capacity_eq, ← herror b' e] at herror'
    rw [herror']
    exact .error e
  | ok r =>
    cases hpush' : push b' with
    | error e =>
      have herror' := (herror b' e).mp hpush'
      rw [h.length_eq, h.capacity_eq, ← herror b e, hpush] at herror'
      cases herror'
    | ok r' =>
      obtain ⟨hlist, hcapacity⟩ := hok b r hpush
      obtain ⟨hlist', hcapacity'⟩ := hok b' r' hpush'
      refine .ok ⟨?_, ?_⟩
      · rw [hlist', hlist, h.toList_eq]
      · rw [hcapacity', hcapacity, h.capacity_eq]

theorem pushBack (h : b.Twins b') (x : α) : Agree Twins (b.pushBack x) (b'.pushBack x) :=
  h.push (· ++ [x]) (fun b => b.pushBack_eq_error_iff x)
    fun _ _ hpush => ⟨toList_pushBack hpush, capacity_pushBack hpush⟩

theorem pushFront (h : b.Twins b') (x : α) : Agree Twins (b.pushFront x) (b'.pushFront x) :=
  h.push (x :: ·) (fun b => b.pushFront_eq_error_iff x)
    fun _ _ hpush => ⟨toList_pushFront hpush, capacity_pushFront hpush⟩

/-- An item that was taken out of both, and what is left. -/
def Taken (r r' : α × RingBuffer α) : Prop := r'.1 = r.1 ∧ r.2.Twins r'.2

theorem popFront (h : b.Twins b') : Agree Taken b.popFront b'.popFront := by
  cases hpop : b.popFront with
  | error e =>
    have herror := (b.popFront_eq_error_iff e).mp hpop
    rw [← h.toList_eq, ← b'.popFront_eq_error_iff] at herror
    rw [herror]
    exact .error e
  | ok r =>
    obtain ⟨x, rest⟩ := r
    obtain ⟨hlist, hcapacity⟩ := popFront_eq_ok hpop
    cases hpop' : b'.popFront with
    | error e =>
      have hnil := ((b'.popFront_eq_error_iff e).mp hpop').1
      rw [h.toList_eq, hlist] at hnil
      cases hnil
    | ok r' =>
      obtain ⟨x', rest'⟩ := r'
      obtain ⟨hlist', hcapacity'⟩ := popFront_eq_ok hpop'
      rw [h.toList_eq, hlist, List.cons_eq_cons] at hlist'
      obtain ⟨hx, hrest⟩ := hlist'
      exact .ok ⟨hx.symm, hrest.symm, by rw [hcapacity', hcapacity, h.capacity_eq]⟩

end Twins

end RingBuffer

variable {V : Type}

namespace TokenStream

theorem insertNear_twins {b b' : RingBuffer (Symbol V)} (h : b.Twins b') (x : Symbol V)
    (offset : Nat) : Agree RingBuffer.Twins (insertNear b x offset) (insertNear b' x offset) := by
  match offset with
  | 0 => exact h.pushFront x
  | 1 =>
    refine h.popFront.bind ?_
    rintro ⟨_, rest⟩ ⟨first, rest'⟩ ⟨rfl, hrest⟩
    exact (hrest.pushFront x).bind fun _ _ hpushed => hpushed.pushFront first
  | offset + 2 => exact .error _

theorem removeNear_twins {b b' : RingBuffer (Symbol V)} (h : b.Twins b') (offset : Nat) :
    Agree RingBuffer.Twins.Taken (removeNear b offset) (removeNear b' offset) := by
  match offset with
  | 0 => exact h.popFront
  | 1 =>
    refine h.popFront.bind ?_
    rintro ⟨_, rest⟩ ⟨first, rest'⟩ ⟨rfl, hrest⟩
    refine hrest.popFront.bind ?_
    rintro ⟨_, rest⟩ ⟨second, rest'⟩ ⟨rfl, hrest⟩
    exact (hrest.pushFront first).bind fun _ _ hpushed => .ok ⟨rfl, hpushed⟩
  | offset + 2 => exact .error _

/-- Streams that are the same but for the places of the buffered tokens in the ring. -/
inductive Twins (s : TokenStream V) : TokenStream V → Prop
  | intro {buffer : RingBuffer (Symbol V)} : s.buffer.Twins buffer → Twins s { s with buffer }

end TokenStream

/-- Deliveries of streams that cannot be told apart. -/
inductive Delivery.Twins (d : Delivery V) : Delivery V → Prop
  | intro {stream : TokenStream V} : d.stream.Twins stream → Twins d { d with stream }

/-- Simulations that have come to the same, and have left related streams. -/
inductive Simulation.Related (S : TokenStream V → TokenStream V → Prop) (sim : Simulation V) :
    Simulation V → Prop
  | intro {stream : TokenStream V} : S sim.stream stream → Related S sim { sim with stream }

namespace TokenStream.Twins

variable {s s' : TokenStream V}

theorem refl (s : TokenStream V) : s.Twins s := .intro (.refl s.buffer)

theorem peek?_eq (h : s.Twins s') (offset : Nat) : s'.peek? offset = s.peek? offset := by
  obtain ⟨hbuffer⟩ := h
  exact hbuffer.get?_eq offset

theorem setBuffering (h : s.Twins s') (buffering : Bool) :
    (s.setBuffering buffering).Twins (s'.setBuffering buffering) := by
  obtain ⟨hbuffer⟩ := h
  exact .intro hbuffer

theorem rewind (h : s.Twins s') : Agree Twins s.rewind s'.rewind := by
  obtain ⟨hbuffer⟩ := h
  unfold TokenStream.rewind
  cases s.buffering with
  | true => exact .ok (.intro hbuffer)
  | false => exact .error _

theorem insert (h : s.Twins s') (offset : Nat) (x : Symbol V) :
    Agree Twins (s.insert offset x) (s'.insert offset x) := by
  obtain ⟨hbuffer⟩ := h
  exact (insertNear_twins hbuffer x offset).bind fun _ _ hinserted => .ok (.intro hinserted)

/-- A token that was taken out of both, and what is left. -/
def Taken (r r' : Symbol V × TokenStream V) : Prop := r'.1 = r.1 ∧ r.2.Twins r'.2

theorem remove (h : s.Twins s') (offset : Nat) :
    Agree Taken (s.remove offset) (s'.remove offset) := by
  obtain ⟨hbuffer⟩ := h
  refine (removeNear_twins hbuffer offset).bind ?_
  rintro ⟨_, rest⟩ ⟨token, rest'⟩ ⟨rfl, hrest⟩
  exact .ok ⟨rfl, .intro hrest⟩

theorem modify (h : s.Twins s') (offset : Nat) (f : Symbol V → Symbol V) :
    (s.modify offset f).Twins (s'.modify offset f) := by
  have hpeek := h.peek?_eq offset
  obtain ⟨hbuffer⟩ := h
  unfold TokenStream.modify
  rw [hpeek]
  cases s.peek? offset with
  | some token => exact .intro (hbuffer.set offset (f token))
  | none => exact .intro hbuffer

theorem next (h : s.Twins s') : Agree Delivery.Twins s.next s'.next := by
  obtain ⟨hbuffer⟩ := h
  unfold TokenStream.next
  dsimp only
  rw [hbuffer.isEmpty_eq]
  cases s.buffering with
  | true => exact .error _
  | false =>
    cases s.buffer.isEmpty with
    | true => exact .ok (.intro (.intro hbuffer))
    | false =>
      refine hbuffer.popFront.bind ?_
      rintro ⟨_, rest⟩ ⟨token, rest'⟩ ⟨rfl, hrest⟩
      exact .ok (.intro (.intro hrest))

theorem nextBuffered (h : s.Twins s') : Agree Delivery.Twins s.nextBuffered s'.nextBuffered := by
  obtain ⟨hbuffer⟩ := h
  unfold TokenStream.nextBuffered
  dsimp only
  rw [hbuffer.length_eq, hbuffer.get_eq]
  cases s.buffering with
  | false => exact .error _
  | true =>
    by_cases hend : s.read = s.buffer.length
    · rw [if_pos hend, if_pos hend]
      cases s.scanner.scan.result with
      | ok token =>
        exact (hbuffer.pushBack token).bind fun _ _ hpushed => .ok (.intro (.intro hpushed))
      | error fault => exact .ok (.intro (.intro hbuffer))
    · rw [if_neg hend, if_neg hend]
      exact Agree.bind_right (fun token => .ok (.intro (.intro hbuffer))) _

end TokenStream.Twins

/-! ## Simulations -/

theorem Simulation.runTokens_twins {s s' : TokenStream V} (tables : PackedTables) (fuel more : Nat)
    (sim : Simulator) (h : s.Twins s') (lexical : List LexicalError) :
    Agree (Simulation.Related TokenStream.Twins) (runTokens tables fuel more sim s lexical)
      (runTokens tables fuel more sim s' lexical) := by
  -- By induction on the number of tokens that may follow.
  induction more generalizing sim s s' lexical with
  | zero =>
    rw [runTokens, runTokens]
    refine h.nextBuffered.toFueled.bind ?_
    rintro d - ⟨hstream⟩
    dsimp only
    cases d.result with
    | error fault => exact .ok (.intro hstream)
    | ok token =>
      refine Agree.bind_right ?_ _
      rintro ⟨verdict, sim⟩
      cases verdict <;> exact .ok (.intro hstream)
  | succ more ih =>
    rw [runTokens, runTokens]
    refine h.nextBuffered.toFueled.bind ?_
    rintro d - ⟨hstream⟩
    dsimp only
    cases d.result with
    | error fault => exact .ok (.intro hstream)
    | ok token =>
      refine Agree.bind_right ?_ _
      rintro ⟨verdict, sim⟩
      cases verdict with
      | accepted => exact .ok (.intro hstream)
      | refused => exact .ok (.intro hstream)
      | shifted => exact ih sim hstream _

theorem Simulation.run_twins {s s' : TokenStream V} (tables : PackedTables) (fuel : Nat)
    (base : Array StateId) (h : s.Twins s') :
    Agree (Simulation.Related TokenStream.Twins) (run tables fuel base s)
      (run tables fuel base s') := by
  have hwindow : s'.window - s'.read = s.window - s.read := by
    obtain ⟨-⟩ := h
    rfl
  rw [run, run, hwindow]
  exact runTokens_twins tables fuel _ _ h []

/-! ## What recovery asks of streams -/

/-- Related streams answer alike, and they stay related whatever is done to both of them. -/
structure TokenStream.Interchangeable (S : TokenStream V → TokenStream V → Prop) : Prop where
  peek?_eq : ∀ {s s'}, S s s' → ∀ offset, s'.peek? offset = s.peek? offset
  setBuffering : ∀ {s s'}, S s s' → ∀ mode, S (s.setBuffering mode) (s'.setBuffering mode)
  modify : ∀ {s s'}, S s s' → ∀ offset f, S (s.modify offset f) (s'.modify offset f)
  rewind : ∀ {s s'}, S s s' → Agree S s.rewind s'.rewind
  insert : ∀ {s s'}, S s s' → ∀ offset x, Agree S (s.insert offset x) (s'.insert offset x)
  remove : ∀ {s s'}, S s s' → ∀ offset,
    Agree (fun r r' => r'.1 = r.1 ∧ S r.2 r'.2) (s.remove offset) (s'.remove offset)
  simulate : ∀ {s s'}, S s s' → ∀ tables fuel base, Agree (Simulation.Related S)
    (Simulation.run tables fuel base s) (Simulation.run tables fuel base s')

theorem TokenStream.interchangeable_twins :
    Interchangeable (TokenStream.Twins : TokenStream V → TokenStream V → Prop) where
  peek?_eq := Twins.peek?_eq
  setBuffering := Twins.setBuffering
  modify := Twins.modify
  rewind := Twins.rewind
  insert := Twins.insert
  remove := Twins.remove
  simulate h tables fuel base := Simulation.run_twins tables fuel base h

theorem TokenStream.interchangeable_eq :
    Interchangeable (Eq : TokenStream V → TokenStream V → Prop) where
  peek?_eq h _ := by rw [h]
  setBuffering h _ := by rw [h]
  modify h _ _ := by rw [h]
  rewind h := h ▸ .refl (fun _ => rfl) _
  insert h _ _ := h ▸ .refl (fun _ => rfl) _
  remove h _ := h ▸ .refl (fun _ => ⟨rfl, rfl⟩) _
  simulate h _ _ _ := h ▸ .refl (fun _ => .intro rfl) _

end ShiftReduce
