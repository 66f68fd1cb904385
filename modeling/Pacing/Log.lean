/-!
# Log events

The events sources, workers and runs report, each with its level and its text. Operations
return the events they caused in order, so that a log is part of what is stated about them.
-/

namespace Pacing

/-- Severity of a log event. -/
inductive Level where
  | trace
  | debug
  | info
  | warn
  deriving DecidableEq, Repr

/-- The name of a level. -/
def Level.text : Level → String
  | .trace => "TRACE"
  | .debug => "DEBUG"
  | .info => "INFO"
  | .warn => "WARN"

/-- An event worth reporting. -/
inductive LogEvent where
  /-- A finite source delivers its items. -/
  | replayingItems (count : Nat)
  /-- A finite source was asked again after it had delivered. -/
  | polledAfterClose
  /-- A poll stopped at the batch limit with more items due. -/
  | batchCapReached (behindNanos : Int)
  /-- A member of a replicated source fixed its start time. -/
  | memberCreated (startMillis itemsPerSecond : Int)
  | workerStarted (worker : Nat)
  | outputClosed (worker : Nat)
  | workerStopped (worker emitted : Nat)
  | itemsClosed (emitted : Nat)
  | runningItems (count : Nat)
  | runningStreams (workers : Nat) (itemsPerSecond : Int)
  | runningMembers (members instances : Nat) (itemsPerSecond : Int)
  /-- The time a run was given is over. -/
  | durationElapsed
  /-- A run has been told to end. -/
  | shuttingDown
  | runEnded (emitted written : Nat)
  deriving DecidableEq, Repr

namespace LogEvent

/-- How severe an event is. -/
def level : LogEvent → Level
  | .replayingItems _ | .memberCreated .. | .outputClosed _ | .itemsClosed _ => .debug
  | .polledAfterClose => .warn
  | .batchCapReached _ | .workerStarted _ | .workerStopped .. => .trace
  | .runningItems _ | .runningStreams .. | .runningMembers .. => .info
  | .durationElapsed | .shuttingDown | .runEnded .. => .info

/-- What an event says: its message and then its values by name. -/
def text : LogEvent → String
  | .replayingItems count => "replaying items count=" ++ toString count
  | .polledAfterClose => "items source polled after it closed"
  | .batchCapReached behind =>
    "batch cap reached, schedule still behind behind_nanos=" ++ toString behind
  | .memberCreated start rate =>
    "member supplier created start_time_millis=" ++ toString start
      ++ " items_per_second=" ++ toString rate
  | .workerStarted worker => "Worker " ++ toString worker ++ " started"
  | .outputClosed worker => "Worker " ++ toString worker ++ " output closed"
  | .workerStopped worker emitted =>
    "Worker " ++ toString worker ++ " stopped after " ++ toString emitted ++ " items"
  | .itemsClosed emitted => "Items source closed after " ++ toString emitted ++ " items"
  | .runningItems count => "Replaying " ++ toString count ++ " items"
  | .runningStreams workers rate =>
    "Starting " ++ toString workers ++ " streams at " ++ toString rate ++ " items/s each"
  | .runningMembers members instances rate =>
    "Starting " ++ toString members ++ " members x " ++ toString instances
      ++ " instances at " ++ toString rate ++ " items/s in aggregate"
  | .durationElapsed => "Run duration elapsed"
  | .shuttingDown => "Shutdown signal received, stopping workers..."
  | .runEnded emitted written =>
    "Stopped after emitting " ++ toString emitted ++ " items (" ++ toString written ++ " written)"

/-- The line of an event: its level and what it says. -/
def line (event : LogEvent) : String := event.level.text ++ " " ++ event.text

end LogEvent

end Pacing
