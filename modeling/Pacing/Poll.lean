import Pacing.Clock
import Pacing.Item
import Pacing.Log

/-!
# Polling

A paced source never waits. Each poll looks at the clocks once, hands over what has become due
and says either how much that was or how long nothing more will be due.
-/

namespace Pacing

/-- Largest number of items one poll hands over. -/
def maxBatchSize : Nat := 1024

/-- What a poll tells its caller. -/
inductive Poll where
  /-- This many items were handed over, at least one. -/
  | ready (emitted : Nat)
  /-- Nothing was due; the next item will be after this much monotonic time. -/
  | pending (yieldFor : Duration)
  deriving DecidableEq, Repr, Inhabited

namespace Poll

/-- Number of items a poll handed over. -/
def emitted : Poll → Nat
  | .ready n => n
  | .pending _ => 0

/-- Nothing is due at `now`; the next item is at `due`. The distance is computed within the
signed range, so a hint never exceeds it. -/
def pendingUntil (now due : Int) : Poll := .pending ⟨(Word.satSub due now).toNat⟩

end Poll

/-- Everything a poll does: the source afterwards, the items it handed over, what it reports
and what it logs. A generator's error takes the place of the report; items handed over before
it stay. -/
structure Polled (σ ε α : Type) where
  source : σ
  added : List (Timestamped α)
  outcome : Except ε Poll
  log : List LogEvent

/-- A source that can be polled at a reading of the clocks. -/
class Paced (σ : Type) (ε α : outParam Type) where
  poll : σ → Reading → Polled σ ε α

end Pacing
