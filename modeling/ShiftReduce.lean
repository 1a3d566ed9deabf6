import ShiftReduce.Action
import ShiftReduce.Breach
import ShiftReduce.Layout
import ShiftReduce.Notice
import ShiftReduce.ParseError
import ShiftReduce.ParseStack
import ShiftReduce.Parser.Configuration
import ShiftReduce.Parser.Machine
import ShiftReduce.Parser.Recovery
import ShiftReduce.Parser.Settings
import ShiftReduce.Parser.Simulation
import ShiftReduce.Parser.Stats
import ShiftReduce.Position
import ShiftReduce.PowerOfTwo
import ShiftReduce.Proofs.Agreement
import ShiftReduce.Proofs.Automaton
import ShiftReduce.Proofs.Checked
import ShiftReduce.Proofs.Derivation.Parses
import ShiftReduce.Proofs.Derivation.Stacks
import ShiftReduce.Proofs.Derivation.Trees
import ShiftReduce.Proofs.Fuel
import ShiftReduce.Proofs.LowestDepth
import ShiftReduce.Proofs.MoreFuel
import ShiftReduce.Proofs.Outcomes
import ShiftReduce.Proofs.Parser.Acts
import ShiftReduce.Proofs.Parser.Alongside
import ShiftReduce.Proofs.Parser.Budget
import ShiftReduce.Proofs.Parser.Buffering
import ShiftReduce.Proofs.Parser.Compression
import ShiftReduce.Proofs.Parser.Confirmation
import ShiftReduce.Proofs.Parser.Conservation
import ShiftReduce.Proofs.Parser.Depth
import ShiftReduce.Proofs.Parser.ErrorSpacing
import ShiftReduce.Proofs.Parser.Faults
import ShiftReduce.Proofs.Parser.Fields
import ShiftReduce.Proofs.Parser.Goals
import ShiftReduce.Proofs.Parser.Growth
import ShiftReduce.Proofs.Parser.Invariants
import ShiftReduce.Proofs.Parser.Lockstep
import ShiftReduce.Proofs.Parser.Log
import ShiftReduce.Proofs.Parser.Moments
import ShiftReduce.Proofs.Parser.Moves
import ShiftReduce.Proofs.Parser.Opening
import ShiftReduce.Proofs.Parser.Oracle
import ShiftReduce.Proofs.Parser.Paths
import ShiftReduce.Proofs.Parser.Protocol
import ShiftReduce.Proofs.Parser.Safety
import ShiftReduce.Proofs.Parser.Settings
import ShiftReduce.Proofs.Parser.Spans
import ShiftReduce.Proofs.Parser.Steps
import ShiftReduce.Proofs.Parser.Termination
import ShiftReduce.Proofs.Parser.Tracing
import ShiftReduce.Proofs.Parser.Twins
import ShiftReduce.Proofs.Positions
import ShiftReduce.Proofs.Recovery.Attempts
import ShiftReduce.Proofs.Recovery.Confirmation
import ShiftReduce.Proofs.Recovery.Containment
import ShiftReduce.Proofs.Recovery.Counters
import ShiftReduce.Proofs.Recovery.Depth
import ShiftReduce.Proofs.Recovery.FirstRepair
import ShiftReduce.Proofs.Recovery.Invariants
import ShiftReduce.Proofs.Recovery.Lockstep
import ShiftReduce.Proofs.Recovery.Moments
import ShiftReduce.Proofs.Recovery.Phrase
import ShiftReduce.Proofs.Recovery.Prescription
import ShiftReduce.Proofs.Recovery.Refinement
import ShiftReduce.Proofs.Recovery.Telling
import ShiftReduce.Proofs.Recovery.Tracing
import ShiftReduce.Proofs.Recovery.Unmarked
import ShiftReduce.Proofs.Recovery.Unwinding
import ShiftReduce.Proofs.Recovery.Window
import ShiftReduce.Proofs.Replay
import ShiftReduce.Proofs.Simulation
import ShiftReduce.Proofs.Stream.Ahead
import ShiftReduce.Proofs.Stream.Deque
import ShiftReduce.Proofs.Stream.Faults
import ShiftReduce.Proofs.Stream.Feed
import ShiftReduce.Proofs.Stream.Pending
import ShiftReduce.Proofs.Stream.Room
import ShiftReduce.Proofs.Stream.Spans
import ShiftReduce.Proofs.Stream.Supply
import ShiftReduce.Proofs.Stream.Tape
import ShiftReduce.Proofs.Stream.Twins
import ShiftReduce.Proofs.Tables.Acceptance
import ShiftReduce.Proofs.Tables.Building
import ShiftReduce.Proofs.Tables.Cells
import ShiftReduce.Proofs.Tables.Closure
import ShiftReduce.Proofs.Tables.Codes
import ShiftReduce.Proofs.Tables.Compression
import ShiftReduce.Proofs.Tables.Enumeration
import ShiftReduce.Proofs.Tables.FirstFit
import ShiftReduce.Proofs.Tables.HashOrder
import ShiftReduce.Proofs.Tables.Lookup
import ShiftReduce.Proofs.Tables.Placement
import ShiftReduce.Proofs.Tables.Recording
import ShiftReduce.Proofs.Tables.Scripts
import ShiftReduce.Proofs.TopDown
import ShiftReduce.Proofs.Window
import ShiftReduce.Recipe
import ShiftReduce.Reduction
import ShiftReduce.RingBuffer.Basic
import ShiftReduce.RingBuffer.Cursor
import ShiftReduce.RingBuffer.Lemmas
import ShiftReduce.Scanner
import ShiftReduce.SparseArray
import ShiftReduce.Stack
import ShiftReduce.Symbol
import ShiftReduce.Tables.Builder
import ShiftReduce.Tables.Cell
import ShiftReduce.Tables.Lookaheads
import ShiftReduce.Tables.Packed
import ShiftReduce.Tables.Packing
import ShiftReduce.Tables.Parts
import ShiftReduce.Tables.Row
import ShiftReduce.Tables.TableError
import ShiftReduce.Text.Quoted
import ShiftReduce.Text.Record
import ShiftReduce.TokenStream
import ShiftReduce.Transcript
import ShiftReduce.Value
