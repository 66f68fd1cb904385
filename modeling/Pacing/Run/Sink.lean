import Pacing.Record
import Pacing.Failure

/-!
# Writing records

Records go to a sink as lines. A sink may take fewer bytes than it is given, and may fail at
any call: its behaviour is a plan that says, for every call by its number, what will happen.
What it has taken is kept, also when a later call fails.
-/

namespace Pacing.Run

/-- How a sink behaves, call by call. -/
structure SinkPlan where
  /-- The most bytes it takes in a call, if there is such a bound. -/
  chunk : Nat → Option Nat
  writeFails : Nat → Bool
  flushFails : Nat → Bool

/-- A sink that takes everything. -/
def SinkPlan.willing : SinkPlan := ⟨fun _ => none, fun _ => false, fun _ => false⟩

/-- Why a sink stopped. -/
inductive SinkError where
  /-- A call failed. -/
  | full
  /-- A call took nothing. -/
  | stalled
  deriving DecidableEq, Repr

/-- The text of a sink's error. -/
def SinkError.text : SinkError → String
  | .full => "disk full"
  | .stalled => "write zero"

/-- A sink: its plan, what it has taken, and how often it was called. -/
structure Sink where
  plan : SinkPlan
  taken : ByteArray
  writes : Nat
  flushes : Nat

namespace Sink

/-- A sink that has not been used. -/
def start (plan : SinkPlan) : Sink := ⟨plan, .empty, 0, 0⟩

/-- Hands bytes over until all are taken. Every successful call takes at least one byte, so
the number of bytes bounds the number of calls. -/
def writeBytes : (calls : Nat) → ByteArray → Sink → Sink × Except SinkError Unit
  | 0, _, s => (s, .ok ())
  | calls + 1, bytes, s =>
    if bytes.size = 0 then (s, .ok ())
    else
      let s' := { s with writes := s.writes + 1 }
      if s.plan.writeFails s.writes then (s', .error .full)
      else
        let accepted := min ((s.plan.chunk s.writes).getD bytes.size) bytes.size
        if accepted = 0 then (s', .error .stalled)
        else writeBytes calls (bytes.extract accepted bytes.size)
          { s' with taken := s.taken ++ bytes.extract 0 accepted }

/-- Writes a record as a line. -/
def writeRecord (s : Sink) (r : Record) : Sink × Except SinkError Unit :=
  let bytes := (r.text ++ "\n").toUTF8
  writeBytes bytes.size bytes s

/-- Has the sink pass on what it has taken. -/
def flush (s : Sink) : Sink × Except SinkError Unit :=
  let s' := { s with flushes := s.flushes + 1 }
  if s.plan.flushFails s.flushes then (s', .error .full) else (s', .ok ())

end Sink

/-! ### The writer -/

/-- What the writer is doing. -/
inductive WriterPhase where
  /-- Waiting for the next batch. -/
  | idle
  /-- Writing a batch of which these records are left. -/
  | writing (rest : List Record)
  /-- Nothing more will come. -/
  | finished
  /-- The sink failed; nothing is received any more. -/
  | failed (failure : Failure)
  deriving DecidableEq, Repr

/-- The writer of a run: its sink, how many records it has written, and what it is doing. -/
structure Writer where
  sink : Sink
  written : Nat
  phase : WriterPhase

namespace Writer

/-- A writer that has received nothing. -/
def start (plan : SinkPlan) : Writer := ⟨.start plan, 0, .idle⟩

/-- The writer takes batches: it has not failed. -/
def isOpen (w : Writer) : Bool :=
  match w.phase with
  | .failed _ => false
  | _ => true

/-- Takes a batch to write. -/
def receive (w : Writer) (batch : List Record) : Writer := { w with phase := .writing batch }

/-- The writer has failed for a reason. -/
def fail (w : Writer) (message cause : String) : Writer :=
  { w with phase := .failed ⟨message, [cause]⟩ }

/-- Writes the next record of the batch, or flushes when none is left. Nothing happens unless
a batch is being written. -/
def advance (w : Writer) : Writer :=
  match w.phase with
  | .writing (r :: rest) =>
    match w.sink.writeRecord r with
    | (sink, .ok ()) => ⟨sink, w.written + 1, .writing rest⟩
    | (sink, .error e) => { w with sink := sink }.fail "failed to write record" e.text
  | .writing [] =>
    match w.sink.flush with
    | (sink, .ok ()) => { w with sink := sink, phase := .idle }
    | (sink, .error e) => { w with sink := sink }.fail "failed to flush output" e.text
  | _ => w

/-- Writes a batch that has been taken, with its flush. -/
def advanceTimes : Nat → Writer → Writer
  | 0, w => w
  | n + 1, w => advanceTimes n w.advance

/-- Writes batches one after the other until the first failure, and finishes. -/
def writeAll : List (List Record) → Writer → Writer
  | [], w => { w with phase := .finished }
  | batch :: batches, w =>
    let w := advanceTimes (batch.length + 1) (w.receive batch)
    if w.isOpen then writeAll batches w else w

/-- What came of writing: the number of records written, or the failure. -/
def result (w : Writer) : Except Failure Nat :=
  match w.phase with
  | .failed failure => .error failure
  | _ => .ok w.written

end Writer

end Pacing.Run
