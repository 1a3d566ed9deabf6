import ShiftReduce.Proofs.Outcomes
import ShiftReduce.Proofs.Parser.Steps
import ShiftReduce.Proofs.Stream.Room

/-!
# How parses open

A parse opens its stream, puts the marker of its goal in front if it has a goal, and reads the
first token. From there on it runs (`parseFor_eq`).

If the buffer for its window can be had, a parse always comes to its first token or to a fault of
the scanner (`exists_start`). If not, it breaks a contract before anything is read
(`parseFor_of_not_openable`).
-/

namespace ShiftReduce.Parser

variable {σ V : Type} {p : Parser σ V} {fuel : Nat} {scanner : Scanner V}
  {goal : Option SymbolId} {memory : σ} {stream : TokenStream V} {q : Progress σ V} {b : Breach}

/-- The stream of a parse, with the marker of a goal in front or without one. -/
def openFor (p : Parser σ V) (scanner : Scanner V) : Option SymbolId → Checked (TokenStream V)
  | none => TokenStream.ofScanner scanner p.settings.window p.slotBytes
  | some marker => do
    (← TokenStream.ofScanner scanner p.settings.window p.slotBytes).withLeading (goalMarker marker)

/-- A parse, with the marker of a goal in front or without one. -/
def parseFor (p : Parser σ V) (fuel : Nat) (scanner : Scanner V) (memory : σ) :
    Option SymbolId → Fueled (Outcome σ V)
  | none => p.parse fuel scanner memory
  | some marker => p.parseGoal fuel scanner marker memory

/-- Where a parse stands when it has read its first token. -/
def start (p : Parser σ V) (scanner : Scanner V) (goal : Option SymbolId) (memory : σ) :
    Checked (Progress σ V) := do
  (Configuration.initial (← p.openFor scanner goal) memory).readToken

/-- Whether the buffer of a parse can be had. -/
def Openable (p : Parser σ V) : Prop := TokenStream.Openable p.settings.window p.slotBytes

instance (p : Parser σ V) : Decidable p.Openable :=
  inferInstanceAs (Decidable (TokenStream.Openable _ _))

/-- A parse runs from its start. -/
theorem parseFor_eq (p : Parser σ V) (fuel : Nat) (scanner : Scanner V) (goal : Option SymbolId)
    (memory : σ) :
    p.parseFor fuel scanner memory goal = liftM (p.start scanner goal memory) >>= p.run fuel := by
  cases goal with
  | none =>
    rw [parseFor, parse, start, openFor]
    cases TokenStream.ofScanner scanner p.settings.window p.slotBytes with
    | error b => rfl
    | ok stream => rfl
  | some marker =>
    rw [parseFor, parseGoal, start, openFor]
    cases TokenStream.ofScanner scanner p.settings.window p.slotBytes with
    | error b => rfl
    | ok opened =>
      simp only [liftM_ok, ok_bind]
      cases opened.withLeading (goalMarker marker) with
      | error b => rfl
      | ok stream => rfl

theorem parseFor_of_open (h : p.openFor scanner goal = .ok stream)
    (hread : (Configuration.initial stream memory).readToken = .ok q) (fuel : Nat) :
    p.parseFor fuel scanner memory goal = p.run fuel q := by
  rw [parseFor_eq, start, h, ok_bind, hread]
  rfl

theorem parseFor_of_error (h : p.openFor scanner goal = .error b) (fuel : Nat) (memory : σ) :
    p.parseFor fuel scanner memory goal = .error (.breach b) := by
  rw [parseFor_eq, start, h]
  rfl

/-- Where a parse can begin. -/
theorem Starts.exists_start (h : p.Starts scanner goal q) :
    ∃ memory, p.start scanner goal memory = .ok q := by
  cases h with
  | @parse stream memory _ hopen hread =>
    refine ⟨memory, ?_⟩
    rw [start, openFor, hopen, ok_bind, hread]
  | @parseGoal stream stream' marker memory _ hopen hlead hread =>
    refine ⟨memory, ?_⟩
    rw [start, openFor, hopen, ok_bind, hlead, ok_bind, hread]

/-! ## The stream -/

theorem openFor_spec (h : p.openFor scanner goal = .ok stream) :
    stream.buffering = false ∧ stream.scanner = scanner ∧
      stream.buffered = (goal.map goalMarker).toList := by
  cases goal with
  | none =>
    obtain ⟨-, -, hmode, hnil⟩ := TokenStream.ofScanner_spec h
    exact ⟨hmode, TokenStream.scanner_ofScanner h, hnil⟩
  | some marker =>
    obtain ⟨opened, hopen, hlead⟩ := bind_eq_ok.mp h
    obtain ⟨-, -, hmode, hnil⟩ := TokenStream.ofScanner_spec hopen
    have hscanner := (TokenStream.scanner_withLeading hlead).trans
      (TokenStream.scanner_ofScanner hopen)
    obtain ⟨buffer, hpush, hstream⟩ := bind_eq_ok.mp hlead
    cases hstream
    refine ⟨hmode, hscanner, (RingBuffer.toList_pushBack hpush).trans ?_⟩
    rw [show opened.buffer.toList = [] from hnil]
    rfl

/-- The stream of a parse carries what the scanner delivers, the end of input behind it and the
marker of the goal. -/
theorem openFor_carries {A : SymbolId → Prop} (h : p.openFor scanner goal = .ok stream)
    (hitems : ∀ token, .ok token ∈ scanner.items → A token.id) (hgoal : ∀ marker ∈ goal, A marker)
    (heof : A eof) : stream.Carries A := by
  cases goal with
  | none => exact .ofScanner h hitems heof
  | some marker =>
    obtain ⟨opened, hopen, hlead⟩ := bind_eq_ok.mp h
    obtain ⟨-, -, -, hnil⟩ := TokenStream.ofScanner_spec hopen
    have hcarries : opened.Carries A := .ofScanner hopen hitems heof
    exact hcarries.cons (hgoal marker rfl) (TokenStream.withLeading_spec hlead hnil).1

/-- The stream of a parse holds back the marker of the goal at most. -/
theorem openFor_fits (h : p.openFor scanner goal = .ok stream) :
    stream.Fits (max p.settings.window 1) 0 1 := by
  cases goal with
  | none => exact (TokenStream.ofScanner_fits h).mono (Nat.le_refl 0) (Nat.zero_le 1)
  | some marker =>
    obtain ⟨opened, hopen, hlead⟩ := bind_eq_ok.mp h
    have hfits := holds_of_exists
      ((TokenStream.ofScanner_fits hopen).withLeading (Nat.zero_le _) (goalMarker marker)) hlead
    exact hfits.mono (Nat.zero_le _) (Nat.le_refl 1)

theorem exists_openFor (h : p.Openable) (scanner : Scanner V) (goal : Option SymbolId) :
    ∃ stream, p.openFor scanner goal = .ok stream := by
  obtain ⟨opened, hopen⟩ := TokenStream.exists_ofScanner scanner h
  cases goal with
  | none => exact ⟨opened, hopen⟩
  | some marker =>
    obtain ⟨stream, hlead, -⟩ := (TokenStream.ofScanner_fits hopen).withLeading (Nat.zero_le _)
      (goalMarker marker)
    refine ⟨stream, ?_⟩
    rw [openFor, hopen, ok_bind, hlead]

theorem openFor_of_not_openable (h : ¬p.Openable) (scanner : Scanner V)
    (goal : Option SymbolId) :
    p.openFor scanner goal = .error (TokenStream.openingFault p.settings.window) := by
  have hopen := TokenStream.ofScanner_of_not_openable scanner h
  cases goal with
  | none => exact hopen
  | some marker =>
    rw [openFor, hopen]
    rfl

/-! ## The first token -/

theorem exists_start (h : p.Openable) (scanner : Scanner V) (goal : Option SymbolId) (memory : σ) :
    ∃ q, p.start scanner goal memory = .ok q := by
  obtain ⟨stream, hopen⟩ := exists_openFor h scanner goal
  obtain ⟨q, hread⟩ := Configuration.exists_readToken
    (c := .initial stream memory) (openFor_spec hopen).1
  refine ⟨q, ?_⟩
  rw [start, hopen, ok_bind, hread]

/-- Without a buffer there is no parse at all. -/
theorem parseFor_of_not_openable (h : ¬p.Openable) (fuel : Nat) (scanner : Scanner V) (memory : σ)
    (goal : Option SymbolId) :
    p.parseFor fuel scanner memory goal =
      .error (.breach (TokenStream.openingFault p.settings.window)) :=
  parseFor_of_error (openFor_of_not_openable h scanner goal) fuel memory

end ShiftReduce.Parser
