import Pacing.Run.Launch
import Pacing.Cli.Arguments

/-!
# From arguments to a run

The arguments are checked one after the other, and the source is taken from the configuration
document if there is one and from the flags otherwise.
-/

namespace Pacing.Cli

open Pacing.Run

/-- Why a file could not be read. -/
structure FileFault where
  text : String
  deriving DecidableEq, Repr

/-- There is no such file. -/
def FileFault.notFound : FileFault := ⟨"No such file or directory (os error 2)"⟩

/-- The path leads through a file. -/
def FileFault.notDirectory : FileFault := ⟨"Not a directory (os error 20)"⟩

/-- The path is that of a directory. -/
def FileFault.isDirectory : FileFault := ⟨"Is a directory (os error 21)"⟩

/-- A part of the path is longer than names can be. -/
def FileFault.nameTooLong : FileFault := ⟨"File name too long (os error 36)"⟩

/-- The path holds a null character, which no name can. -/
def FileFault.nullInPath : FileFault := ⟨"file name contained an unexpected NUL byte"⟩

/-- The bytes of the file are no text. -/
def FileFault.notText : FileFault := ⟨"stream did not contain valid UTF-8"⟩

/-- The files a program can see, by their paths. -/
abbrev Files := String → Except FileFault ByteArray

/-- The text of a file. -/
def readTextFile (files : Files) (path : String) : Except FileFault String := do
  if Char.ofNat 0 ∈ path.toList then .error .nullInPath
  match String.fromUTF8? (← files path) with
  | some text => return text
  | none => .error .notText

/-- An item of the list: a document if it is one, and the string itself otherwise. -/
def parseItem (raw : String) : Json :=
  match Json.parse raw with
  | .ok value => value
  | .error _ => .string raw

/-- The source described by the flags. -/
def sourceFromFlags (a : Arguments) : SourceConfig :=
  match a.source with
  | .items => .items (a.items.map fun raw => raw.map parseItem)
  | .itemStream => .itemStream (some a.itemsPerSecond)
  | .longStream => .longStream (some a.itemsPerSecond) a.initialDelayMs a.localParallelism

/-- The source described by the document at a path. -/
def sourceFromFile (files : Files) (path : String) : Except Failure SourceConfig :=
  match readTextFile files path with
  | .error fault => .error ⟨"failed to read " ++ path, [fault.text]⟩
  | .ok text =>
    match SourceConfig.fromJson text with
    | .ok source => .ok source
    | .error e =>
      .error ⟨"failed to parse " ++ path,
        e.message :: (e.cause?.map Json.Fault.category).toList⟩

/-- A setting that must not be zero. -/
def positive (name : String) (n : Nat) : Except Failure Positive :=
  match Positive.ofNat? n with
  | some p => .ok p
  | none => .error ⟨name ++ " must be greater than 0", []⟩

/-- Checks the settings in their order and finds the source. Without a number of workers there
is one for each of the `processors`. -/
def configure (files : Files) (processors : Nat) (a : Arguments) : Except Failure RunConfig := do
  let workers ← positive "NUM_WORKERS" (a.workers.getD processors)
  let members ← positive "MEMBERS" a.members
  let pollInterval ← positive "POLL_INTERVAL_MS" a.pollIntervalMs
  let channelCapacity ← positive "CHANNEL_CAPACITY" a.channelCapacity
  let source ←
    match a.config with
    | some path => sourceFromFile files path
    | none => .ok (sourceFromFlags a)
  return {
    source := source
    workers := workers
    members := members
    duration := a.durationSecs.map Duration.ofSeconds
    pollInterval := .ofMillis pollInterval.val
    channelCapacity := channelCapacity.val }

/-! ### The program -/

/-- Why the program ends before its run. -/
inductive Stop where
  | interrupted (i : Interrupt)
  | failed (f : Failure)
  /-- The environment file makes an assignment that cannot be made. -/
  | aborted (assignment : Dotenv.Unsettable)
  deriving DecidableEq, Repr

/-- The exit code of a program that fails. -/
def failureCode : Nat := 1

/-- What the program answers when asked for its version. -/
def versionText : String := "trickle 0.3.0"

/-- The program up to its run: the environment file adds to the environment, and the arguments
and the environment give the settings. -/
def prepare (arguments : List String) (env : Environment) (dotenv : Option ByteArray)
    (files : Files) (processors : Nat) : Except Stop RunConfig := do
  let env ← (dotenv.elim (.ok env) (Dotenv.load env)).mapError .aborted
  let a ← (Arguments.parse arguments env).mapError .interrupted
  (configure files processors a).mapError .failed

end Pacing.Cli
