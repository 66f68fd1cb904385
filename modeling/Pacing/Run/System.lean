import Pacing.Run.Sink
import Pacing.Run.Worker

/-!
# The run as a system of steps

Workers send batches through one bounded queue, first in first out, to one writer. What may
happen next is a matter of steps: a worker takes a turn, hands over its batch, or wakes up; the
writer receives a batch, writes a record or flushes, or finds that nothing more will come; the
run is cancelled. Any order of steps that are possible one after the other is a run.

A batch is handed over when the queue has room. Once the writer has failed, everything queued
is dropped and every batch is refused.

Nothing more will come once nobody holds a sender to the queue. Every worker has one until it
ends, and the run itself has the one that theirs were made from. It gives that up when all workers
have been started, and then joins them one by one as they end; only after the last of them does it
ask what came of the writer.
-/

namespace Pacing.Run

/-- A run: its workers, the queue between them and the writer, and whether it is cancelled. -/
structure System (σ : Type) where
  /-- Longest rest of a worker. -/
  interval : Duration
  /-- Number of batches the queue holds. -/
  capacity : Nat
  workers : Array (Worker σ)
  queue : List (List Record)
  writer : Writer
  cancelled : Bool
  /-- The run itself still holds a sender to the queue. -/
  holdsSender : Bool
  /-- Number of items that the workers joined so far have emitted. -/
  collected : Nat

/-- A step of a run. Workers are given by their place among them. -/
inductive Label where
  | release
  | turn (worker : Nat) (r : Reading)
  | hand (worker : Nat)
  | wake (worker : Nat)
  | join (worker : Nat)
  | receive
  | write
  | finish
  | cancel
  deriving Repr

namespace System

/-- The run before its first step, and what its workers log when they start. -/
def start [Driven σ] (interval : Duration) (capacity : Nat) (plan : SinkPlan)
    (sources : List (Nat × σ)) : System σ × List LogEvent :=
  ({ interval := interval
     capacity := capacity
     workers := (sources.map fun (id, source) => Worker.start id source).toArray
     queue := []
     writer := .start plan
     cancelled := false
     holdsSender := true
     collected := 0 },
    sources.flatMap fun (id, _) => Driven.greeting σ id)

variable [Driven σ]

/-- Puts a worker back in its place. -/
def setWorker (s : System σ) (i : Nat) (w : Worker σ × List LogEvent) :
    System σ × List LogEvent :=
  ({ s with workers := s.workers.setIfInBounds i w.1 }, w.2)

/-- Every worker has ended. -/
def allStopped (s : System σ) : Bool := s.workers.all Worker.isStopped

/-- Every worker has been joined. -/
def allJoined (s : System σ) : Bool := s.workers.all Worker.isJoined

/-- Nobody can send a batch any more. -/
def noSenders (s : System σ) : Bool := !s.holdsSender && s.allStopped

/-- The queue has room for a batch. -/
def hasRoom (s : System σ) : Bool := s.queue.length < s.capacity

/-- Does a step if it is possible. -/
def step (s : System σ) : Label → Option (System σ × List LogEvent)
  | .release => if s.holdsSender then some ({ s with holdsSender := false }, []) else none
  | .turn i r =>
    match s.workers[i]? with
    | some w =>
      match w.phase with
      | .ready => some (s.setWorker i (w.turn s.interval s.cancelled r))
      | _ => none
    | none => none
  | .hand i =>
    match s.workers[i]? with
    | some w =>
      match w.phase with
      | .sending batch _ =>
        if s.writer.isOpen = false then some (s.setWorker i w.refused)
        else if s.hasRoom then
          some ({ s with queue := s.queue ++ [batch] }.setWorker i w.delivered)
        else none
      | _ => none
    | none => none
  | .wake i =>
    match s.workers[i]? with
    | some w =>
      match w.phase with
      | .resting _ => some (s.setWorker i (w.wake s.cancelled))
      | _ => none
    | none => none
  | .join i =>
    match s.workers[i]? with
    | some w =>
      match w.phase with
      | .stopped =>
        if s.holdsSender then none
        else some ({ s with collected := s.collected + w.emitted }.setWorker i (w.join, []))
      | _ => none
    | none => none
  | .receive =>
    match s.writer.phase, s.queue with
    | .idle, batch :: queue =>
      some ({ s with queue := queue, writer := s.writer.receive batch }, [])
    | _, _ => none
  | .write =>
    match s.writer.phase with
    | .writing _ =>
      let writer := s.writer.advance
      some ({ s with writer := writer, queue := if writer.isOpen then s.queue else [] }, [])
    | _ => none
  | .finish =>
    match s.writer.phase, s.queue with
    | .idle, [] =>
      if s.noSenders then some ({ s with writer := { s.writer with phase := .finished } }, [])
      else none
    | _, _ => none
  | .cancel => if s.cancelled then none else some ({ s with cancelled := true }, [])

/-- Does a list of steps, all of which must be possible. -/
def run (s : System σ) : List Label → Option (System σ × List LogEvent)
  | [] => some (s, [])
  | label :: labels => do
    let (s, log) ← s.step label
    let (s, later) ← s.run labels
    return (s, log ++ later)

theorem run_append (s : System σ) (earlier later : List Label) :
    s.run (earlier ++ later) = do
      let (s, log) ← s.run earlier
      let (s, more) ← s.run later
      return (s, log ++ more) := by
  induction earlier generalizing s with
  | nil =>
    cases h : s.run later <;> simp [run, h]
  | cons label earlier ih =>
    simp only [List.cons_append, run, ih]
    cases h : s.step label with
    | none => rfl
    | some next =>
      cases h' : next.1.run earlier with
      | none => simp [h']
      | some mid => cases h'' : mid.1.run later <;> simp [h', h'', List.append_assoc]

/-- The run is over: every worker has been joined, and the writer has finished or failed. -/
def isOver (s : System σ) : Bool :=
  !s.holdsSender && s.allJoined &&
    match s.writer.phase with
    | .finished => true
    | .failed _ => true
    | _ => false

end System

/-- What a run reports when it ends. -/
structure Summary where
  emitted : Nat
  written : Nat
  deriving DecidableEq, Repr

/-- What came of a run: its totals, or the failure of its writer. -/
def System.result [Driven σ] (s : System σ) : Except Failure Summary := do
  return ⟨s.collected, ← s.writer.result⟩

end Pacing.Run
