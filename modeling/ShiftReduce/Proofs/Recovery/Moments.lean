import ShiftReduce.Parser.Recovery

/-!
# Moments of recovery

What happens inside recovery leaves no trace in its result: strategies that fail put
everything back. So that something can be said about the time in between, the relations
here name each configuration that recovery comes by, one relation for each function, in the
order in which the function does its work.

* `Simulation.Passes` and `Configuration.Simulates`: while a simulation reads.
* `TryingIds`, `Inserting`, `Replacing`, `Deleting`: while the offending token is edited.
* `Widening` and `ReplacingPhrase`: while the error symbol takes the place of a phrase.
* `Recovering`: in the whole of recovery.

The result of a function is the last of its moments.
-/

namespace ShiftReduce

variable {σ V : Type}

def Repair.configuration : Repair σ V → Configuration σ V
  | .repaired c => c
  | .aborted _ c => c

def Attempt.configuration : Attempt σ V → Configuration σ V
  | .settled r => r.configuration
  | .failed c => c

/-- What a simulation of one token and of some more passes, from a stream and the lexical
faults met so far: what stream it has read, and the faults that it has met by then. -/
inductive Simulation.Passes (t : PackedTables) (fuel : Nat) :
    Nat → Simulator → TokenStream V → List LexicalError → TokenStream V → List LexicalError → Prop
  | start {more : Nat} {sim : Simulator} {stream : TokenStream V} {lexical : List LexicalError} :
      Passes t fuel more sim stream lexical stream lexical
  | read {more : Nat} {sim : Simulator} {stream : TokenStream V} {lexical : List LexicalError}
      {d : Delivery V} : stream.nextBuffered = .ok d →
      Passes t fuel more sim stream lexical d.stream (lexical ++ d.lexical)
  | next {more : Nat} {sim sim' : Simulator} {stream stream' : TokenStream V}
      {lexical lexical' : List LexicalError} {d : Delivery V} {token : Symbol V} :
      stream.nextBuffered = .ok d → d.result = .ok token →
      sim.advance t token.id fuel = .ok (.shifted, sim') →
      Passes t fuel more sim' d.stream (lexical ++ d.lexical) stream' lexical' →
      Passes t fuel (more + 1) sim stream lexical stream' lexical'

namespace Configuration

/-- A configuration in the course of a simulation, which has read a stream and has met
lexical faults. -/
def simulating (c : Configuration σ V) (stream : TokenStream V) (lexical : List LexicalError) :
    Configuration σ V :=
  ({ c with stream }.count fun stats =>
    { stats with simulations := stats.simulations + 1 }).notifyLexical lexical

/-- The moments of a simulation. -/
inductive Simulates (p : Parser σ V) (fuel : Nat) (c : Configuration σ V) :
    Configuration σ V → Prop
  | before : Simulates p fuel c c
  | reading {stream stream' : TokenStream V} {lexical : List LexicalError} :
      c.stream.rewind = .ok stream →
      Simulation.Passes p.tables fuel (stream.window - stream.read - 1)
        (.ofStates c.stack.states) stream [] stream' lexical →
      Simulates p fuel c (c.simulating stream' lexical)

end Configuration

namespace Recovery

open ShiftReduce.Configuration

/-! ## Edits of the offending token -/

/-- The moments of trying ids. -/
inductive TryingIds (p : Parser σ V) (fuel : Nat) (strategy : Strategy) (state : StateId)
    (notice : Symbol V → Notice V) :
    List SymbolId → Configuration σ V → Configuration σ V → Prop
  | simulating {id : SymbolId} {ids : List SymbolId} {c c' : Configuration σ V} :
      (modifyHead ({ · with id }) c).Simulates p fuel c' →
      TryingIds p fuel strategy state notice (id :: ids) c c'
  | traced {id : SymbolId} {ids : List SymbolId} {c c' : Configuration σ V}
      {sim : Simulation V} :
      (modifyHead ({ · with id }) c).simulate p fuel = .ok (sim, c') →
      sim.succeeded = .ok true →
      TryingIds p fuel strategy state notice (id :: ids) c (traceSuccess p strategy state 0 sim c')
  | next {id : SymbolId} {ids : List SymbolId} {c mid c' : Configuration σ V}
      {sim : Simulation V} :
      (modifyHead ({ · with id }) c).simulate p fuel = .ok (sim, mid) →
      sim.succeeded = .ok false → TryingIds p fuel strategy state notice ids mid c' →
      TryingIds p fuel strategy state notice (id :: ids) c c'
  | done {ids : List SymbolId} {c : Configuration σ V} {a : Attempt σ V} :
      tryIds p fuel strategy state notice ids c = .ok a →
      TryingIds p fuel strategy state notice ids c a.configuration

inductive Inserting (p : Parser σ V) (fuel : Nat) (state : StateId) (ids : List SymbolId)
    (c : Configuration σ V) : Configuration σ V → Prop
  | trying {first : SymbolId} {rest : List SymbolId} {below : Symbol V} {stream : TokenStream V}
      {c' : Configuration σ V} : ids = first :: rest → c.stack.topSymbol = .ok below →
      c.stream.insert 0 (.empty first below.stop below.stop) = .ok stream →
      TryingIds p fuel .insertion state .inserted ids { c with stream } c' →
      Inserting p fuel state ids c c'
  | removed {first : SymbolId} {rest : List SymbolId} {below x : Symbol V}
      {stream stream' : TokenStream V} {mid : Configuration σ V} : ids = first :: rest →
      c.stack.topSymbol = .ok below →
      c.stream.insert 0 (.empty first below.stop below.stop) = .ok stream →
      tryIds p fuel .insertion state .inserted ids { c with stream } = .ok (.failed mid) →
      mid.stream.remove 0 = .ok (x, stream') →
      Inserting p fuel state ids c { mid with stream := stream' }
  | done {a : Attempt σ V} : insertMissing p fuel state ids c = .ok a →
      Inserting p fuel state ids c a.configuration

inductive Replacing (p : Parser σ V) (fuel : Nat) (state : StateId) (ids : List SymbolId)
    (c : Configuration σ V) : Configuration σ V → Prop
  | trying {token : Symbol V} {c' : Configuration σ V} : ids ≠ [] →
      c.stream.peek? 0 = some token →
      TryingIds p fuel .replacement state .replaced (ids.filter (· != token.id)) c c' →
      Replacing p fuel state ids c c'
  | restored {token : Symbol V} {mid : Configuration σ V} : ids ≠ [] →
      c.stream.peek? 0 = some token →
      tryIds p fuel .replacement state .replaced (ids.filter (· != token.id)) c =
        .ok (.failed mid) →
      Replacing p fuel state ids c (modifyHead ({ · with id := token.id }) mid)
  | done {a : Attempt σ V} : replaceMisspelled p fuel state ids c = .ok a →
      Replacing p fuel state ids c a.configuration

inductive Deleting (p : Parser σ V) (fuel : Nat) (state : StateId) (c : Configuration σ V) :
    Configuration σ V → Prop
  | rewound {stream : TokenStream V} : c.stream.rewind = .ok stream →
      Deleting p fuel state c { c with stream }
  | simulating {token : Symbol V} {stream stream' : TokenStream V} {c' : Configuration σ V} :
      c.stream.rewind = .ok stream → stream.remove 0 = .ok (token, stream') →
      ({ c with stream := stream' } : Configuration σ V).Simulates p fuel c' →
      Deleting p fuel state c c'
  | traced {token : Symbol V} {stream stream' : TokenStream V} {mid : Configuration σ V}
      {sim : Simulation V} :
      c.stream.rewind = .ok stream → stream.remove 0 = .ok (token, stream') →
      ({ c with stream := stream' } : Configuration σ V).simulate p fuel = .ok (sim, mid) →
      sim.succeeded = .ok true →
      Deleting p fuel state c (traceSuccess p .deletion state 0 sim mid)
  | restored {token : Symbol V} {stream stream' stream'' : TokenStream V}
      {mid : Configuration σ V} {sim : Simulation V} :
      c.stream.rewind = .ok stream → stream.remove 0 = .ok (token, stream') →
      ({ c with stream := stream' } : Configuration σ V).simulate p fuel = .ok (sim, mid) →
      sim.succeeded = .ok false → mid.stream.insert 0 token = .ok stream'' →
      Deleting p fuel state c { mid with stream := stream'' }
  | done {a : Attempt σ V} : deleteUnexpected p fuel state c = .ok a →
      Deleting p fuel state c a.configuration

/-! ## Error phrases -/

/-- The moments of widening a phrase. -/
inductive Widening (p : Parser σ V) (state : StateId) (unwound : Nat) :
    Nat → Configuration σ V → Configuration σ V → Prop
  | simulating {fuel : Nat} {c c' : Configuration σ V} : c.Simulates p fuel c' →
      Widening p state unwound (fuel + 1) c c'
  | traced {fuel : Nat} {c mid : Configuration σ V} {sim : Simulation V} :
      c.simulate p fuel = .ok (sim, mid) → sim.succeeded = .ok true →
      Widening p state unwound (fuel + 1) c (traceSuccess p .phrase state unwound sim mid)
  | discarded {fuel : Nat} {c mid : Configuration σ V} {sim : Simulation V} {token : Symbol V}
      {stream : TokenStream V} : c.simulate p fuel = .ok (sim, mid) →
      sim.succeeded = .ok false → mid.stream.remove 0 = .ok (token, stream) →
      Widening p state unwound (fuel + 1) c { mid with stream }
  | next {fuel : Nat} {c mid c' : Configuration σ V} {sim : Simulation V} {token : Symbol V}
      {stream : TokenStream V} {stack : ParseStack V} : c.simulate p fuel = .ok (sim, mid) →
      sim.succeeded = .ok false → mid.stream.remove 0 = .ok (token, stream) →
      token.isEof = false →
      mid.stack.modifyTopSymbol ({ · with stop := token.stop }) = .ok stack →
      Widening p state unwound fuel { mid with stream, stack } c' →
      Widening p state unwound (fuel + 1) c c'
  | done {fuel : Nat} {c : Configuration σ V} {r : Repair σ V} :
      widenPhrase p state unwound fuel c = .ok r →
      Widening p state unwound fuel c r.configuration

/-- The moments of replacing a phrase. Entries are taken off down to the one that shifts the
error symbol, or else down to the bottom. -/
inductive ReplacingPhrase (p : Parser σ V) (fuel : Nat) (state : StateId)
    (c : Configuration σ V) : Configuration σ V → Prop
  | unwinding {error : SymbolId} {found : Option (Nat × StateId)} {depth : Nat} :
      p.tables.errorSymbol = some error →
      errorShift? p.tables error c.stack c.stack.depth = .ok found →
      (found.map Prod.fst).getD 1 ≤ depth →
      ReplacingPhrase p fuel state c { c with stack := c.stack.truncate depth }
  | widening {error : SymbolId} {below : Symbol V} {depth : Nat} {target : StateId}
      {c' : Configuration σ V} : c.stack.topSymbol = .ok below →
      p.tables.errorSymbol = some error →
      errorShift? p.tables error c.stack c.stack.depth = .ok (some (depth, target)) →
      Widening p state (c.stack.depth - depth) fuel
        (({ c with stack := c.stack.truncate depth } : Configuration σ V).push target
          (phraseSymbol error c.stack depth
            (((c.stream.peek? 0).map Symbol.start).getD below.stop))) c' →
      ReplacingPhrase p fuel state c c'
  | done {r : Repair σ V} : replacePhrase p fuel state c = .ok r →
      ReplacingPhrase p fuel state c r.configuration

/-! ## All strategies -/

/-- How recovery begins: the offending token is back in front of the stream, and it is known
what could stand in its place. -/
structure Opens (p : Parser σ V) (token : Symbol V) (c : Configuration σ V) (state : StateId)
    (ids : List SymbolId) (opened : Configuration σ V) : Prop where
  not_eof : token.isEof = false
  topState_eq : c.stack.topState = .ok state
  candidates_eq : candidates p.tables state = .ok ids
  opened_eq : ∃ stream, (c.stream.setBuffering true).insert 0 token = .ok stream ∧
    opened = { c with stream }

/-- The moments of recovery. Each strategy begins where the one before has failed. -/
inductive Recovering (p : Parser σ V) (fuel : Nat) (token : Symbol V) (c : Configuration σ V) :
    Configuration σ V → Prop
  | buffering : token.isEof = false →
      Recovering p fuel token c { c with stream := c.stream.setBuffering true }
  | inserting {state : StateId} {ids : List SymbolId} {c₀ c' : Configuration σ V} :
      Opens p token c state ids c₀ → Inserting p fuel state ids c₀ c' →
      Recovering p fuel token c c'
  | replacing {state : StateId} {ids : List SymbolId} {c₀ c₁ c' : Configuration σ V} :
      Opens p token c state ids c₀ → insertMissing p fuel state ids c₀ = .ok (.failed c₁) →
      Replacing p fuel state ids c₁ c' → Recovering p fuel token c c'
  | deleting {state : StateId} {ids : List SymbolId} {c₀ c₁ c₂ c' : Configuration σ V} :
      Opens p token c state ids c₀ → insertMissing p fuel state ids c₀ = .ok (.failed c₁) →
      replaceMisspelled p fuel state ids c₁ = .ok (.failed c₂) →
      Deleting p fuel state c₂ c' → Recovering p fuel token c c'
  | replacingPhrase {state : StateId} {ids : List SymbolId} {c₀ c₁ c₂ c₃ c' : Configuration σ V} :
      Opens p token c state ids c₀ → insertMissing p fuel state ids c₀ = .ok (.failed c₁) →
      replaceMisspelled p fuel state ids c₁ = .ok (.failed c₂) →
      deleteUnexpected p fuel state c₂ = .ok (.failed c₃) →
      ReplacingPhrase p fuel state c₃ c' → Recovering p fuel token c c'
  | done {r : Repair σ V} : recover p fuel token c = .ok r →
      Recovering p fuel token c r.configuration

end Recovery

end ShiftReduce
