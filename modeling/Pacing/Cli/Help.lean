import Pacing.Cli.Arguments

/-!
# Help

What the program answers when asked for help, and what it says about arguments it does not
understand.
-/

namespace Pacing.Cli

namespace Flag

/-- How the value of a flag is named. -/
def valueName (f : Flag) : String :=
  String.ofList (f.name.toList.map fun c => if c = '-' then '_' else c.toUpper)

/-- What a flag is for, line by line. -/
def about : Flag → List String
  | source =>
    ["Source to run: items replays --items once and exits, stream emits a rate-limited",
      "stream of events per worker, long splits a stream of integers across members"]
  | itemsPerSecond =>
    ["Target rate. For stream this applies to every worker; for long it is the aggregate",
      "across all instances"]
  | items =>
    ["Comma separated items for the items source. Each one is parsed as JSON when possible",
      "and kept as a string otherwise. The list is split on every comma before parsing"]
  | initialDelayMs => ["Delay before the long source emits its first value"]
  | localParallelism =>
    ["Instances hosted per member by the long source. Defaults to the worker count"]
  | members => ["Number of simulated cluster members for the long source"]
  | workers => ["Number of worker tasks. Defaults to the number of CPUs"]
  | durationSecs => ["Stop after this many seconds. Runs until interrupted when unset"]
  | pollIntervalMs =>
    ["Longest a worker sleeps between polls, even when its source reports a longer wait"]
  | channelCapacity => ["Batches buffered between the workers and the output writer"]
  | config => ["JSON source configuration file, overriding the source flags"]

/-- The default of a flag, if it has one. -/
def defaultText : Flag → Option String
  | source => some (sourceFlagValue Given.none.complete.source)
  | itemsPerSecond => some (toString Given.none.complete.itemsPerSecond)
  | initialDelayMs => some (toString Given.none.complete.initialDelayMs)
  | members => some (toString Given.none.complete.members)
  | pollIntervalMs => some (toString Given.none.complete.pollIntervalMs)
  | channelCapacity => some (toString Given.none.complete.channelCapacity)
  | _ => .none

/-- The help lines of a flag. -/
def helpLines (f : Flag) : List String :=
  ("      --" ++ f.name ++ " <" ++ f.valueName ++ ">")
    :: (f.about ++ ["[env: " ++ f.variableName ++ "]"]
        ++ (f.defaultText.map fun text => "[default: " ++ text ++ "]").toList).map
      ("          " ++ ·)
    ++ [""]

end Flag

/-- The help of the program, line by line. -/
def helpLines : List String :=
  ["Emit paced synthetic events as JSON lines", "", "Usage: trickle [OPTIONS]", "", "Options:"]
    ++ Flag.all.flatMap Flag.helpLines
    ++ ["  -h, --help", "          Print help", "", "  -V, --version", "          Print version"]

/-- What is said about arguments that are not understood. -/
def Interrupt.complaint : Interrupt → String
  | .argumentConflict => "error: an argument cannot be used multiple times"
  | .invalidValue => "error: a value is required or not one of the possible values"
  | .unknownArgument => "error: unexpected argument found"
  | .valueValidation => "error: invalid value for an argument"
  | .tooManyValues => "error: unexpected value for an argument that takes none"
  | .displayHelp => "help requested"
  | .displayVersion => "version requested"

end Pacing.Cli
