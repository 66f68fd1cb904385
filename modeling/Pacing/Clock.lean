import Pacing.Word
import Pacing.Duration

/-!
# Clock readings

Two clocks matter: a monotonic one that paces emission and a wall clock that stamps items.
Everything that depends on time takes a `Reading`, the two values seen at one instant. A
manual clock is nothing but the reading it currently shows: it moves only by `advance` and
`setWall`, and whoever holds it sees the same reading.
-/

namespace Pacing

/-- What the two clocks show at one instant, in nanoseconds. -/
structure Reading where
  monotonic : Int
  wall : Int
  deriving DecidableEq, Repr, Inhabited

namespace Reading

/-- Wall-clock milliseconds since the epoch, rounded down. -/
def wallMillis (r : Reading) : Int := r.wall / (nanosPerMilli : Int)

/-- How far the wall clock is ahead of the monotonic one. -/
def offset (r : Reading) : Int := r.wall - r.monotonic

end Reading

namespace ManualClock

/-- The first reading of a manual clock, from monotonic nanoseconds and wall-clock
milliseconds; milliseconds beyond the range stop at its end. -/
def start (monotonicNanos wallMillis : Int) : Reading where
  monotonic := monotonicNanos
  wall := Word.satMul wallMillis nanosPerMilli

/-- What one advance adds to both readings: its nanoseconds, at most the largest word. -/
def stepNanos (span : Duration) : Int := Word.ofCount span.nanos

/-- Moves both readings forward; each wraps around modulo `2 ^ 64` on its own. -/
def advance (r : Reading) (span : Duration) : Reading where
  monotonic := Word.wrap (r.monotonic + stepNanos span)
  wall := Word.wrap (r.wall + stepNanos span)

/-- Sets the wall clock and leaves the monotonic reading alone, as an adjustment of the
system time does. -/
def setWall (r : Reading) (nanos : Int) : Reading := { r with wall := nanos }

/-- One movement of a manual clock. -/
inductive Move where
  | advance (span : Duration)
  | setWall (nanos : Int)
  deriving DecidableEq, Repr

/-- The reading after one movement. -/
def Move.apply (r : Reading) : Move → Reading
  | .advance d => ManualClock.advance r d
  | .setWall nanos => ManualClock.setWall r nanos

/-- The reading after a list of movements, in order. -/
def run (r : Reading) (moves : List Move) : Reading := moves.foldl Move.apply r

theorem run_append (r : Reading) (earlier later : List Move) :
    run r (earlier ++ later) = run (run r earlier) later := by
  simp [run]

end ManualClock

end Pacing
