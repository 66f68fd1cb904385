import Pacing.Run.Worker

/-!
# One worker in virtual time

A worker on its own, with a clock that moves only while it rests and an output that always
has room. A timer says when the end of a rest is noticed: at once if it is exact, or at the next
whole millisecond if it ticks; one that ticks also bounds the length of a rest. The worker is
cancelled, and its output closed, from within turns given by their number.
-/

namespace Pacing.Run

/-- What happens to the worker from outside. -/
structure SoloPlan where
  /-- Longest rest. -/
  interval : Duration
  /-- The turn, counted from one, in which the worker is cancelled; zero is before the first. -/
  cancelAt : Nat
  /-- The turn in which the output closes, before the batch of that turn is sent; zero is before
  the first. -/
  closeAt : Option Nat
  /-- The instant at which the end of a rest is noticed, from the one at which it starts and its
  length. Instants are in nanoseconds. -/
  timer : Nat → Duration → Nat
  /-- What the clocks show at an instant. -/
  reading : Nat → Reading

/-- What became of a worker: how much it emitted, its polls, the batches it sent and the rests it
began with their instants, and its log. -/
structure SoloResult where
  emitted : Nat
  polls : List (Nat × Poll)
  batches : List (Nat × List Record)
  rests : List (Nat × Duration)
  log : List LogEvent

namespace SoloResult

/-- Puts something that happened before. -/
def before (r : SoloResult) (polls : List (Nat × Poll))
    (batches : List (Nat × List Record)) (rests : List (Nat × Duration)) (log : List LogEvent) :
    SoloResult :=
  { r with
    polls := polls ++ r.polls
    batches := batches ++ r.batches
    rests := rests ++ r.rests
    log := log ++ r.log }

end SoloResult

namespace SoloPlan

/-- The plan has cancelled the worker once it has taken this many turns. -/
def isCancelled (p : SoloPlan) (turns : Nat) : Bool := p.cancelAt ≤ turns

/-- The plan has closed the output once the worker has taken this many turns. -/
def isClosed (p : SoloPlan) (turns : Nat) : Bool := p.closeAt.any (· ≤ turns)

/-- A timer that notices the end of a rest at once. -/
def exactTimer (start : Nat) (span : Duration) : Nat := start + span.nanos

/-- The whole millisecond at or after an instant. -/
def wholeMilli (nanos : Nat) : Nat := (nanos + (nanosPerMilli - 1)) / nanosPerMilli * nanosPerMilli

/-- Longest rest of a ticking timer: thirty years of 365 days. -/
def longestRest : Duration := .ofSeconds 946080000

/-- A timer that ticks every millisecond and ends every rest after `longestRest` at the latest. -/
def tickingTimer (start : Nat) (span : Duration) : Nat :=
  wholeMilli (start + (span.shorter longestRest).nanos)

/-- Follows a worker that has taken `turns` turns and has come to the instant `now`, through no
more than `steps` changes of what it is doing. -/
def follow [Driven σ] (p : SoloPlan) : (steps now turns : Nat) → Worker σ → SoloResult
  | 0, _, _, w => ⟨w.emitted, [], [], [], []⟩
  | steps + 1, now, turns, w =>
    match w.phase with
    | .stopped | .joined => ⟨w.emitted, [], [], [], []⟩
    | .ready =>
      if p.isCancelled turns && Driven.heedsCancel σ then
        let (w, log) := w.stop
        (p.follow steps now turns w).before [] [] [] log
      else
        let t := Driven.turn w.id w.source (p.reading now)
        let (w, log) := w.settle p.interval t
        (p.follow steps now (turns + 1) w).before
          (t.poll.map fun o => (now, o)).toList [] [] log
    | .sending batch _ =>
      if p.isClosed turns then
        let (w, log) := w.refused
        (p.follow steps now turns w).before [] [] [] log
      else
        let (w, log) := w.delivered
        (p.follow steps now turns w).before [] [(now, batch)] [] log
    | .resting d =>
      let cancelled := p.isCancelled turns
      let later := if cancelled then now else p.timer now d
      let (w, log) := w.wake cancelled
      (p.follow steps later turns w).before [] [] [(now, d)] log

/-- Runs a worker from its start. After `cancelAt` turns it is cancelled, so that twice as many
steps and a few more are enough. -/
def run [Driven σ] (p : SoloPlan) (id : Nat) (source : σ) : SoloResult :=
  (p.follow (2 * p.cancelAt + 4) 0 0 (Worker.start id source)).before [] [] []
    (Driven.greeting σ id)

end SoloPlan

/-! ### Scripts -/

/-- A source that follows a script of poll results. What is ready are consecutive integers,
dated ten milliseconds apart; when the script is over, nothing is due for a millisecond. -/
structure Script where
  rest : List Poll
  next : Nat
  deriving Repr

namespace Script

/-- A script at its beginning. -/
def start (polls : List Poll) : Script := ⟨polls, 0⟩

/-- Plays the next line of the script. -/
def poll (s : Script) : Polled Script Empty Int :=
  match s.rest with
  | [] => ⟨s, [], .ok (.pending (.ofMillis 1)), []⟩
  | .pending d :: rest => ⟨{ s with rest := rest }, [], .ok (.pending d), []⟩
  | .ready n :: rest =>
    let item (i : Nat) : Timestamped Int := ⟨(s.next + i : Nat), (s.next + i : Nat) * 10⟩
    ⟨⟨rest, s.next + n⟩, (List.range n).map item, .ok (.ready n), []⟩

instance : Paced Script Empty Int := ⟨fun s _ => s.poll⟩

end Script

end Pacing.Run
