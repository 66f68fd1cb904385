import Pacing.Buffer
import Pacing.Stream
import Pacing.Long
import Pacing.Record

/-!
# Workers

A worker drives one source of its own. It takes turns: each turn asks the source once, and
either has a batch to send, or rests for a while, or is through. A worker on a paced source
goes on until it is cancelled or its output closes; one on a finite source sends everything it
has in one batch and ends, cancelled or not.
-/

namespace Pacing.Run

/-- What a worker does after a turn. -/
inductive Next where
  /-- Sends a batch, and ends after it if it is the last one. -/
  | send (batch : List Record) (last : Bool)
  /-- Rests before the next turn. -/
  | rest (span : Duration)
  /-- Ends. -/
  | finish
  deriving DecidableEq, Repr

/-- One turn of a worker: the source afterwards, how many items it emitted, what the worker
does next, what a paced source reported, and what was logged. -/
structure Turn (σ : Type) where
  source : σ
  emitted : Nat
  next : Next
  poll : Option Poll
  log : List LogEvent

/-- Sources a worker can drive. -/
class Driven (σ : Type) where
  /-- The turn of a worker with the given number at a reading. -/
  turn : (worker : Nat) → σ → Reading → Turn σ
  /-- The worker ends when it is cancelled. -/
  heedsCancel : Bool
  /-- What a worker logs when it starts. -/
  greeting : (worker : Nat) → List LogEvent
  /-- What a worker logs when it ends. -/
  farewell : (worker emitted : Nat) → LogEvent

/-- A turn on a paced source that cannot fail is one poll, which fills the worker's buffer. What is
ready is taken and sent, and a hint is how long to rest. Since nothing is added while nothing is
ready, every turn begins with an empty buffer. -/
def pacedTurn [Paced σ Empty α] [ToItem α] (worker : Nat) (source : σ) (r : Reading) : Turn σ :=
  let p := Paced.poll source r
  let buffer := (RecordBuffer.new worker).addAllTimestamped p.added
  match p.outcome with
  | .ok (.ready n) => ⟨p.source, n, .send buffer.take.1 false, some (.ready n), p.log⟩
  | .ok (.pending d) => ⟨p.source, 0, .rest d, some (.pending d), p.log⟩
  | .error e => nomatch e

instance [Paced σ Empty α] [ToItem α] : Driven σ where
  turn := pacedTurn
  heedsCancel := true
  greeting worker := [.workerStarted worker]
  farewell worker emitted := .workerStopped worker emitted

/-- The only turn on a finite source delivers everything; nothing is sent if there was
nothing. -/
def replayTurn (worker : Nat) (source : ItemsSource Json) : Turn (ItemsSource Json) :=
  let (after, buffer, log) := source.fill (RecordBuffer.new worker)
  ⟨after, source.remaining, if buffer.isEmpty then .finish else .send buffer.take.1 true, none, log⟩

instance : Driven (ItemsSource Json) where
  turn worker source _ := replayTurn worker source
  heedsCancel := false
  greeting _ := []
  farewell _ emitted := .itemsClosed emitted

/-- What a worker is doing. -/
inductive Phase where
  /-- About to take a turn. -/
  | ready
  /-- Waiting to hand over a batch. -/
  | sending (batch : List Record) (last : Bool)
  /-- Resting for this long. -/
  | resting (span : Duration)
  | stopped
  /-- Has ended, and the run has counted what it emitted. -/
  | joined
  deriving DecidableEq, Repr

/-- A worker: its number, its source, how many items it has emitted, and what it is doing. -/
structure Worker (σ : Type) where
  id : Nat
  source : σ
  emitted : Nat
  phase : Phase

namespace Worker

variable [Driven σ]

/-- A worker that has done nothing. -/
def start (id : Nat) (source : σ) : Worker σ := ⟨id, source, 0, .ready⟩

/-- The worker has ended. -/
def isStopped (w : Worker σ) : Bool :=
  match w.phase with
  | .stopped | .joined => true
  | _ => false

/-- The run knows that the worker has ended. -/
def isJoined (w : Worker σ) : Bool := w.phase == .joined

/-- Ends the worker. -/
def stop (w : Worker σ) : Worker σ × List LogEvent :=
  ({ w with phase := .stopped }, [Driven.farewell σ w.id w.emitted])

/-- Goes on as a turn says. A rest is no longer than the given interval. -/
def settle (w : Worker σ) (interval : Duration) (t : Turn σ) : Worker σ × List LogEvent :=
  let w := { w with source := t.source, emitted := w.emitted + t.emitted }
  match t.next with
  | .send batch last => ({ w with phase := .sending batch last }, t.log)
  | .rest d => ({ w with phase := .resting (d.shorter interval) }, t.log)
  | .finish => let (w, log) := w.stop; (w, t.log ++ log)

/-- Takes a turn, or ends if the worker is cancelled and minds. -/
def turn (w : Worker σ) (interval : Duration) (cancelled : Bool) (r : Reading) :
    Worker σ × List LogEvent :=
  if cancelled && Driven.heedsCancel σ then w.stop
  else w.settle interval (Driven.turn w.id w.source r)

/-- The batch has been handed over. -/
def delivered (w : Worker σ) : Worker σ × List LogEvent :=
  match w.phase with
  | .sending _ true => w.stop
  | _ => ({ w with phase := .ready }, [])

/-- Nobody takes the batch any more: it is lost, and the worker ends. -/
def refused (w : Worker σ) : Worker σ × List LogEvent :=
  let (w', log) := w.stop
  (w', .outputClosed w.id :: log)

/-- The rest is over, or was cut short by being cancelled. -/
def wake (w : Worker σ) (cancelled : Bool) : Worker σ × List LogEvent :=
  if cancelled then w.stop else ({ w with phase := .ready }, [])

/-- The run counts what the worker has emitted. -/
def join (w : Worker σ) : Worker σ := { w with phase := .joined }

end Worker

end Pacing.Run
