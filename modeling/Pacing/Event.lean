import Pacing.Duration
import Pacing.Json.Printer
import Pacing.Json.Decode

/-!
# Simple events

The default item of a stream: the slot it was emitted for, made of its event time and its
number. It is shown with the time of day in UTC, and travels as a record of two integers.
-/

namespace Pacing

/-- A slot: event time in milliseconds since the epoch, and position in the output. -/
structure SimpleEvent where
  timestamp : Int
  sequence : Int
  deriving DecidableEq, Repr, Inhabited

namespace SimpleEvent

/-- Events are ordered by time first and by number then. -/
def compare (a b : SimpleEvent) : Ordering :=
  (Ord.compare a.timestamp b.timestamp).then (Ord.compare a.sequence b.sequence)

theorem compare_eq_lt {a b : SimpleEvent} : a.compare b = .lt ↔
    a.timestamp < b.timestamp ∨ a.timestamp = b.timestamp ∧ a.sequence < b.sequence := by
  rw [compare, Ordering.then_eq_lt, Int.compare_eq_lt, Int.compare_eq_eq, Int.compare_eq_lt]

/-- Milliseconds in a day. -/
def millisPerDay : Int := 86400000

/-- Milliseconds since midnight UTC. -/
def millisOfDay (e : SimpleEvent) : Nat := (e.timestamp % millisPerDay).toNat

/-- `n` with exactly `width` digits. -/
def padded (width n : Nat) : String := String.ofList (Duration.fixedDigits width n)

/-- The time of day of an event, `HH:MM:SS.mmm`. -/
def timeOfDay (e : SimpleEvent) : String :=
  let millis := e.millisOfDay
  padded 2 (millis / 3600000) ++ ":" ++ padded 2 (millis / 60000 % 60) ++ ":"
    ++ padded 2 (millis / 1000 % 60) ++ "." ++ padded 3 (millis % 1000)

/-- How an event is shown. -/
def display (e : SimpleEvent) : String :=
  "SimpleEvent(timestamp=" ++ e.timeOfDay ++ ", sequence=" ++ toString e.sequence ++ ")"

/-- How an event is shown with its fields. -/
def debug (e : SimpleEvent) : String :=
  "SimpleEvent \x7b timestamp: " ++ toString e.timestamp ++ ", sequence: "
    ++ toString e.sequence ++ " \x7d"

/-- The document of an event. -/
def toJson (e : SimpleEvent) : Json :=
  .object [("timestamp", .int e.timestamp), ("sequence", .int e.sequence)]

/-- Reads an event: a record of its two integers. -/
def read (value : Json.Outline) : Except Json.Fault SimpleEvent := do
  match ← Json.readRecord [⟨"timestamp", Json.Outline.readInt⟩, ⟨"sequence", Json.Outline.readInt⟩]
      value with
  | [timestamp, sequence] => return ⟨timestamp, sequence⟩
  | _ => .error .mistyped

/-- The event a text stands for. -/
def parse (text : String) : Except Json.Fault SimpleEvent := Json.readText read text

end SimpleEvent

end Pacing
