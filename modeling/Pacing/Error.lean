import Pacing.Duration
import Pacing.Json.Fault

/-!
# Errors

Everything that can be wrong with the description of a source. Polling a source never raises
one of these: falling behind is no failure, and a generator has errors of its own.
-/

namespace Pacing

/-- Highest accepted rate: one item per nanosecond. -/
def maxItemsPerSecond : Int := 1000000000

/-- Why a source could not be built. -/
inductive Error where
  /-- A required argument was not given. -/
  | missing (argument : String)
  /-- The milliseconds of an initial delay do not fit in a signed word. -/
  | delayOutOfRange (delay : Duration)
  /-- A rate outside `1 ..= maxItemsPerSecond`. -/
  | invalidRate (value : Int)
  /-- A value did not survive being written and read back. -/
  | notTransportable (name : String) (fault : Json.Fault)
  /-- A configuration document could not be read. -/
  | invalidConfig (fault : Json.Fault)
  deriving DecidableEq, Repr

namespace Error

/-- What the message says about an argument. -/
def argumentMessage (name reason : String) : String :=
  "invalid argument `" ++ name ++ "`: " ++ reason

/-- The text of an error. -/
def message : Error → String
  | .missing argument => argumentMessage argument "required but not provided"
  | .delayOutOfRange delay => argumentMessage "initial_delay" (delay.text ++ " is out of range")
  | .invalidRate value =>
    "items_per_second must be within 1..=" ++ toString maxItemsPerSecond ++ ", got "
      ++ toString value
  | .notTransportable name fault => "`" ++ name ++ "` is not transportable: " ++ fault.category
  | .invalidConfig fault => "invalid source configuration: " ++ fault.category

/-- The fault of a document behind an error, if there is one. -/
def cause? : Error → Option Json.Fault
  | .notTransportable _ fault => some fault
  | .invalidConfig fault => some fault
  | _ => none

end Error

end Pacing
