import ShiftReduce.Proofs.Stream.Pending

/-!
# Faults on the way to a token

A request to a scanner pulls items until there is an answer: lexical faults are skipped, one by
one, and then a token or another fault is the answer. A stream that has a token buffered asks
its scanner for nothing.

* `Scanner.Skips`: the part of a request that skips faults.
* `Request`: the items that a request pulls, and what comes of them.
* `Scanner.scan_request`: what a scanner does is a request.
* `Delivery.From`: what a stream delivers is from its buffer or from its scanner.
-/

namespace ShiftReduce

variable {V : Type}

/-- The lexical fault that a fault is. -/
def ScanError.lexical? : ScanError → Option LexicalError
  | lexical e => some e
  | io _ => none
  | other _ => none

def ScanError.isLexical (fault : ScanError) : Bool := fault.lexical?.isSome

def lexicalFault? : Except ScanError (Symbol V) → Option LexicalError
  | .ok _ => none
  | .error fault => fault.lexical?

def lexicalFaults (items : List (Except ScanError (Symbol V))) : List LexicalError :=
  items.filterMap lexicalFault?

/-- No item of these is a fault that ends a parse. -/
def Harmless (items : List (Except ScanError (Symbol V))) : Prop :=
  ∀ fault, .error fault ∈ items → fault.isLexical = true

theorem lexicalFaults_append (items more : List (Except ScanError (Symbol V))) :
    lexicalFaults (items ++ more) = lexicalFaults items ++ lexicalFaults more :=
  List.filterMap_append

theorem Harmless.append {items more : List (Except ScanError (Symbol V))} (h : Harmless items)
    (h' : Harmless more) : Harmless (items ++ more) := by
  intro fault hmem
  rcases List.mem_append.mp hmem with hmem | hmem
  · exact h fault hmem
  · exact h' fault hmem

theorem Harmless.dropLast {items : List (Except ScanError (Symbol V))} (h : Harmless items) :
    Harmless items.dropLast :=
  fun fault hmem => h fault (List.dropLast_subset items hmem)

/-- A fault that ends a parse is not told as a lexical one. -/
theorem lexicalFaults_fatal {fault : ScanError} (h : fault.isLexical = false) :
    lexicalFaults ([.error fault] : List (Except ScanError (Symbol V))) = [] := by
  cases fault with
  | lexical e => cases h
  | io message => rfl
  | other message => rfl

namespace Scanner

variable {s s' s'' : Scanner V} {item : Except ScanError (Symbol V)} {faults : List LexicalError}

/-- A scanner that has been asked for items, all of which were lexical faults. -/
inductive Skips : Scanner V → List LexicalError → Scanner V → Prop
  | none {s : Scanner V} : Skips s [] s
  | one {s s' s'' : Scanner V} {e : LexicalError} {faults : List LexicalError} :
      s.next = (.error (.lexical e), s') → Skips s' faults s'' → Skips s (e :: faults) s''

/-- A fault that is delivered was the first of the items. -/
theorem items_of_next_error {fault : ScanError} (h : s.next = (.error fault, s')) :
    s.items = .error fault :: s'.items := by
  obtain ⟨items, stop⟩ := s
  cases items with
  | nil => cases h
  | cons first rest =>
    cases first with
    | ok token => cases h
    | error found =>
      cases h
      rfl

/-- A token that is delivered was the first of the items, unless there were none. -/
theorem items_of_next_ok {token : Symbol V} (h : s.next = (.ok token, s')) :
    (s.items = [] ∧ s' = s ∧ token = .endOfInput s.stop) ∨ s.items = .ok token :: s'.items := by
  obtain ⟨items, stop⟩ := s
  cases items with
  | nil =>
    cases h
    exact .inl ⟨rfl, rfl, rfl⟩
  | cons first rest =>
    cases first with
    | ok found =>
      cases h
      exact .inr rfl
    | error fault => cases h

/-- The items that have been skipped are the faults. -/
theorem Skips.items_eq (h : s.Skips faults s') :
    s.items = faults.map (fun e => .error (.lexical e)) ++ s'.items := by
  induction h with
  | none => rfl
  | one hnext _ ih =>
    rw [items_of_next_error hnext, ih]
    rfl

/-- A request skips faults until an item is the answer. -/
theorem scan_spec (s : Scanner V) : ∃ s', s.Skips s.scan.lexical s' ∧
    s'.next = (s.scan.result, s.scan.scanner) ∧
      ∀ fault, s.scan.result = .error fault → fault.isLexical = false := by
  obtain ⟨items, stop⟩ := s
  induction items with
  | nil => exact ⟨_, .none, rfl, fun _ h => nomatch h⟩
  | cons item rest ih =>
    cases item with
    | ok token => exact ⟨_, .none, rfl, fun _ h => nomatch h⟩
    | error fault =>
      cases fault with
      | lexical e =>
        obtain ⟨s', hskips, hnext, hfatal⟩ := ih
        exact ⟨s', .one rfl hskips, hnext, hfatal⟩
      | io message =>
        refine ⟨_, .none, rfl, ?_⟩
        rintro _ ⟨⟩
        rfl
      | other message =>
        refine ⟨_, .none, rfl, ?_⟩
        rintro _ ⟨⟩
        rfl

end Scanner

/-- The items that lexical faults are. -/
def skipped (faults : List LexicalError) : List (Except ScanError (Symbol V)) :=
  faults.map fun e => .error (.lexical e)

theorem lexicalFaults_skipped (faults : List LexicalError) :
    lexicalFaults (skipped faults : List (Except ScanError (Symbol V))) = faults := by
  rw [lexicalFaults, skipped, List.filterMap_map]
  exact List.filterMap_some

theorem harmless_skipped (faults : List LexicalError) :
    Harmless (skipped faults : List (Except ScanError (Symbol V))) := by
  intro fault hmem
  obtain ⟨e, -, he⟩ := List.mem_map.mp hmem
  cases he
  rfl

/-- The items that a request pulls, the lexical faults that it meets on the way, and its
answer. -/
inductive Request :
    List (Except ScanError (Symbol V)) → List LexicalError → Except ScanError (Symbol V) → Prop
  | token (faults : List LexicalError) (x : Symbol V) :
    Request (skipped faults ++ [.ok x]) faults (.ok x)
  /-- The items run out. -/
  | ended (faults : List LexicalError) (stop : Position) :
    Request (skipped faults) faults (.ok (.endOfInput stop))
  | fault (faults : List LexicalError) {fault : ScanError} :
    fault.isLexical = false → Request (skipped faults ++ [.error fault]) faults (.error fault)

namespace Request

variable {pulled : List (Except ScanError (Symbol V))} {faults : List LexicalError}
  {result : Except ScanError (Symbol V)}

theorem lexicalFaults_eq (h : Request pulled faults result) : lexicalFaults pulled = faults := by
  cases h with
  | token =>
    rw [lexicalFaults_append, lexicalFaults_skipped]
    exact List.append_nil _
  | ended => exact lexicalFaults_skipped _
  | fault _ hfault =>
    rw [lexicalFaults_append, lexicalFaults_skipped, lexicalFaults_fatal hfault, List.append_nil]

theorem harmless {token : Symbol V} (h : Request pulled faults (.ok token)) : Harmless pulled := by
  cases h with
  | token => exact (harmless_skipped _).append (by simp [Harmless])
  | ended => exact harmless_skipped _

theorem fatal {fault : ScanError} (h : Request pulled faults (.error fault)) :
    fault.isLexical = false ∧ ∃ before, pulled = before ++ [.error fault] ∧ Harmless before := by
  cases h with
  | fault _ hfault => exact ⟨hfault, _, rfl, harmless_skipped _⟩

end Request

/-- What a scanner does when it is asked for a token is a request. -/
theorem Scanner.scan_request (s : Scanner V) : ∃ pulled,
    s.items = pulled ++ s.scan.scanner.items ∧ Request pulled s.scan.lexical s.scan.result := by
  obtain ⟨s', hskips, hnext, hfatal⟩ := s.scan_spec
  have hitems := hskips.items_eq
  cases hresult : s.scan.result with
  | ok token =>
    rw [hresult] at hnext
    rcases Scanner.items_of_next_ok hnext with ⟨-, hsame, rfl⟩ | hcons
    · exact ⟨_, hsame ▸ hitems, .ended _ _⟩
    · refine ⟨_, ?_, .token _ token⟩
      rw [hitems, hcons, skipped, List.append_assoc]
      rfl
  | error fault =>
    rw [hresult] at hnext
    refine ⟨_, ?_, .fault _ (hfatal fault hresult)⟩
    rw [hitems, Scanner.items_of_next_error hnext, skipped, List.append_assoc]
    rfl

/-- What a stream delivers is a token that it has buffered, or it is what its scanner answers. -/
inductive Delivery.From (s : TokenStream V) (d : Delivery V) : Prop
  | buffer {token : Symbol V} : d.lexical = [] → d.result = .ok token →
      d.stream.scanner = s.scanner → From s d
  | scanner : d.lexical = s.scanner.scan.lexical → d.result = s.scanner.scan.result →
      d.stream.scanner = s.scanner.scan.scanner → From s d

namespace TokenStream

variable {s : TokenStream V} {d : Delivery V}

theorem next_from (h : s.next = .ok d) : d.From s := by
  unfold next at h
  split at h
  · cases h
  · split at h
    · cases h
      exact .scanner rfl rfl rfl
    · obtain ⟨⟨first, buffer⟩, -, hd⟩ := bind_eq_ok.mp h
      cases hd
      exact .buffer rfl rfl rfl

theorem nextBuffered_from (h : s.nextBuffered = .ok d) : d.From s := by
  unfold nextBuffered at h
  split at h
  · cases h
  · split at h
    · dsimp only at h
      split at h
      · rename_i token htoken
        obtain ⟨buffer, -, hd⟩ := bind_eq_ok.mp h
        cases hd
        exact .scanner rfl htoken.symm rfl
      · rename_i fault hfault
        cases h
        exact .scanner rfl hfault.symm rfl
    · obtain ⟨token, -, hd⟩ := bind_eq_ok.mp h
      cases hd
      exact .buffer rfl rfl rfl

end TokenStream

end ShiftReduce
