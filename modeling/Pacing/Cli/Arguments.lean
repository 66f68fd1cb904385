import Pacing.Config
import Pacing.Cli.Dotenv

/-!
# Command line arguments

Every setting has a flag and an environment variable; the flag wins. Arguments are read from
left to right. The value of a flag is looked at as late as possible: when the next flag comes,
or at the end, if it is an argument of its own, and at once if it is attached with `=`. The
variables are looked at after all arguments, in the order of the flags.
-/

namespace Pacing.Cli

/-- The settings. -/
structure Arguments where
  source : SourceKind
  itemsPerSecond : Int
  items : Option (List String)
  initialDelayMs : Nat
  localParallelism : Option Positive
  members : Nat
  workers : Option Nat
  durationSecs : Option Nat
  pollIntervalMs : Nat
  channelCapacity : Nat
  config : Option String
  deriving DecidableEq, Repr

/-- Settings that have been given so far. -/
structure Given where
  source : Option SourceKind
  itemsPerSecond : Option Int
  items : Option (List String)
  initialDelayMs : Option Nat
  localParallelism : Option Positive
  members : Option Nat
  workers : Option Nat
  durationSecs : Option Nat
  pollIntervalMs : Option Nat
  channelCapacity : Option Nat
  config : Option String
  deriving DecidableEq, Repr

/-- Nothing has been given. -/
def Given.none : Given :=
  ⟨.none, .none, .none, .none, .none, .none, .none, .none, .none, .none, .none⟩

/-- The settings, with the defaults for what was not given. -/
def Given.complete (g : Given) : Arguments where
  source := g.source.getD .itemStream
  itemsPerSecond := g.itemsPerSecond.getD 10
  items := g.items
  initialDelayMs := g.initialDelayMs.getD 0
  localParallelism := g.localParallelism
  members := g.members.getD 1
  workers := g.workers
  durationSecs := g.durationSecs
  pollIntervalMs := g.pollIntervalMs.getD 10
  channelCapacity := g.channelCapacity.getD 64
  config := g.config

/-- Why the settings are not read to the end: something is wrong with the arguments, or help
or the version is asked for. -/
inductive Interrupt where
  | argumentConflict
  | invalidValue
  | unknownArgument
  | valueValidation
  | tooManyValues
  | displayHelp
  | displayVersion
  deriving DecidableEq, Repr

/-- The name of an interrupt's kind. -/
def Interrupt.name : Interrupt → String
  | .argumentConflict => "ArgumentConflict"
  | .invalidValue => "InvalidValue"
  | .unknownArgument => "UnknownArgument"
  | .valueValidation => "ValueValidation"
  | .tooManyValues => "TooManyValues"
  | .displayHelp => "DisplayHelp"
  | .displayVersion => "DisplayVersion"

/-- The exit code of an interrupt. -/
def Interrupt.exitCode : Interrupt → Nat
  | .displayHelp => 0
  | .displayVersion => 0
  | _ => 2

/-! ### Values -/

/-- The name of a source kind as a value of its flag. -/
def sourceFlagValue : SourceKind → String
  | .items => "items"
  | .itemStream => "stream"
  | .longStream => "long"

/-- The source kind with a name. -/
def readSource (text : String) : Except Interrupt SourceKind :=
  if text = "items" then .ok .items
  else if text = "stream" then .ok .itemStream
  else if text = "long" then .ok .longStream
  else .error .invalidValue

/-- The number written by decimal digits, of which there must be at least one. -/
def digits? (text : List Char) : Option Nat :=
  if text.isEmpty then none
  else text.foldl (fun n c => do return (← n) * 10 + (← Json.digitValue? c)) (some 0)

/-- A number after an optional plus sign. -/
def unsigned? (text : List Char) : Option Nat :=
  match text with
  | '+' :: rest => digits? rest
  | text => digits? text

/-- Reads an unsigned 64-bit integer. -/
def readCount (text : String) : Except Interrupt Nat :=
  match unsigned? text.toList with
  | some n => if n < Word.countLimit then .ok n else .error .valueValidation
  | none => .error .valueValidation

/-- Reads a signed 64-bit integer. -/
def readInteger (text : String) : Except Interrupt Int :=
  let value : Option Int :=
    match text.toList with
    | '-' :: rest => (digits? rest).map fun n => -(n : Int)
    | text => (unsigned? text).map Int.ofNat
  match value with
  | some n => if Word.InRange n then .ok n else .error .valueValidation
  | none => .error .valueValidation

/-- Reads a positive count. -/
def readPositive (text : String) : Except Interrupt Positive := do
  match Positive.ofNat? (← readCount text) with
  | some p => return p
  | none => .error .valueValidation

/-- Reads a path, which cannot be empty. -/
def readPath (text : String) : Except Interrupt String :=
  if text = "" then .error .invalidValue else .ok text

/-- The pieces of a text between the separators. -/
def splitPieces (separator : Char) : List Char → List (List Char)
  | [] => [[]]
  | c :: rest =>
    if c = separator then [] :: splitPieces separator rest
    else
      match splitPieces separator rest with
      | [] => [[c]]
      | piece :: pieces => (c :: piece) :: pieces

theorem splitPieces_ne_nil (separator : Char) (text : List Char) :
    splitPieces separator text ≠ [] := by
  cases text with
  | nil => simp [splitPieces]
  | cons c rest =>
    unfold splitPieces
    split
    · simp
    · split <;> simp

/-- There is one piece more than there are separators. -/
theorem splitPieces_length (separator : Char) (text : List Char) :
    (splitPieces separator text).length = text.count separator + 1 := by
  induction text with
  | nil => rfl
  | cons c rest ih =>
    unfold splitPieces
    split
    · next h => simp [h, ih]
    · next h =>
      rw [List.count_cons_of_ne h]
      split
      · next h' => exact absurd h' (splitPieces_ne_nil separator rest)
      · next piece pieces h' => simpa [h'] using ih

/-- The pieces of a list of items. -/
def splitItems (text : String) : List String := (splitPieces ',' text.toList).map String.ofList

/-! ### Flags -/

/-- The flags that take a value. -/
inductive Flag where
  | source
  | itemsPerSecond
  | items
  | initialDelayMs
  | localParallelism
  | members
  | workers
  | durationSecs
  | pollIntervalMs
  | channelCapacity
  | config
  deriving DecidableEq, Repr

namespace Flag

/-- All flags, in their order. -/
def all : List Flag :=
  [source, itemsPerSecond, items, initialDelayMs, localParallelism, members, workers,
    durationSecs, pollIntervalMs, channelCapacity, config]

/-- The name of a flag, without its dashes. -/
def name : Flag → String
  | source => "source"
  | itemsPerSecond => "items-per-second"
  | items => "items"
  | initialDelayMs => "initial-delay-ms"
  | localParallelism => "local-parallelism"
  | members => "members"
  | workers => "workers"
  | durationSecs => "duration-secs"
  | pollIntervalMs => "poll-interval-ms"
  | channelCapacity => "channel-capacity"
  | config => "config"

/-- The environment variable behind a flag. -/
def variableName : Flag → String
  | source => "TRICKLE_SOURCE"
  | itemsPerSecond => "ITEMS_PER_SECOND"
  | items => "ITEMS"
  | initialDelayMs => "INITIAL_DELAY_MS"
  | localParallelism => "LOCAL_PARALLELISM"
  | members => "MEMBERS"
  | workers => "NUM_WORKERS"
  | durationSecs => "RUN_DURATION_SECS"
  | pollIntervalMs => "POLL_INTERVAL_MS"
  | channelCapacity => "CHANNEL_CAPACITY"
  | config => "SOURCE_CONFIG"

/-- The flag with a name. -/
def ofName? (text : String) : Option Flag := all.find? (·.name = text)

/-- The setting of the flag has been given. -/
def isGiven (g : Given) : Flag → Bool
  | source => g.source.isSome
  | itemsPerSecond => g.itemsPerSecond.isSome
  | items => g.items.isSome
  | initialDelayMs => g.initialDelayMs.isSome
  | localParallelism => g.localParallelism.isSome
  | members => g.members.isSome
  | workers => g.workers.isSome
  | durationSecs => g.durationSecs.isSome
  | pollIntervalMs => g.pollIntervalMs.isSome
  | channelCapacity => g.channelCapacity.isSome
  | config => g.config.isSome

/-- Reads the value of a flag. Items add to the ones given before. -/
def assign (g : Given) (text : String) : Flag → Except Interrupt Given
  | source => do return { g with source := some (← readSource text) }
  | itemsPerSecond => do return { g with itemsPerSecond := some (← readInteger text) }
  | items => .ok { g with items := some (g.items.getD [] ++ splitItems text) }
  | initialDelayMs => do return { g with initialDelayMs := some (← readCount text) }
  | localParallelism => do return { g with localParallelism := some (← readPositive text) }
  | members => do return { g with members := some (← readCount text) }
  | workers => do return { g with workers := some (← readCount text) }
  | durationSecs => do return { g with durationSecs := some (← readCount text) }
  | pollIntervalMs => do return { g with pollIntervalMs := some (← readCount text) }
  | channelCapacity => do return { g with channelCapacity := some (← readCount text) }
  | config => do return { g with config := some (← readPath text) }

/-- Gives a flag a value. Only items can be given more than once. -/
def supply (g : Given) (f : Flag) (text : String) : Except Interrupt Given :=
  if f ≠ items ∧ f.isGiven g = true then .error .argumentConflict else f.assign g text

end Flag

/-! ### Arguments -/

/-- A flag whose value is still to be looked at, or still to come. -/
abbrev Pending := Option (Flag × Option String)

/-- Looks at the value of a pending flag. -/
def settle (g : Given) : Pending → Except Interrupt Given
  | none => .ok g
  | some (_, none) => .error .invalidValue
  | some (f, some text) => f.supply g text

/-- What an argument is. -/
inductive Shape where
  /-- The sign that no flags follow. -/
  | terminator
  /-- A flag by its name, with an attached value or without. -/
  | long (name : String) (value : Option String)
  /-- A flag by its letter. -/
  | short (letter : Char)
  /-- Anything else. -/
  | plain
  deriving DecidableEq, Repr

/-- What an argument is by its dashes. -/
def shapeOf (argument : String) : Shape :=
  match argument.toList with
  | ['-', '-'] => .terminator
  | '-' :: '-' :: rest =>
    match rest.dropWhile (· != '=') with
    | [] => .long (String.ofList rest) none
    | _ :: value => .long (String.ofList (rest.takeWhile (· != '='))) (some (String.ofList value))
  | '-' :: letter :: _ => .short letter
  | _ => .plain

/-- Asks for help or the version, once the pending flag is in order. -/
def interrupt (g : Given) (pending : Pending) (i : Interrupt) : Except Interrupt Given := do
  let _ ← settle g pending
  .error i

/-- Reads arguments. Behind the terminator no argument is known. -/
def readArguments : Given → Pending → (terminated : Bool) → List String → Except Interrupt Given
  | g, pending, _, [] => settle g pending
  | _, _, true, _ :: _ => .error .unknownArgument
  | g, pending, false, argument :: rest =>
    match shapeOf argument with
    | .terminator => readArguments g pending true rest
    | .long name value =>
      if name = "help" ∨ name = "version" then
        if value.isSome then .error .tooManyValues
        else interrupt g pending (if name = "help" then .displayHelp else .displayVersion)
      else
        match Flag.ofName? name with
        | none => .error .unknownArgument
        | some f => do
          let g ← settle g pending
          match value with
          | some text => do
            let g ← f.supply g text
            readArguments g none false rest
          | none => readArguments g (some (f, none)) false rest
    | .short letter =>
      if letter = 'h' then interrupt g pending .displayHelp
      else if letter = 'V' then interrupt g pending .displayVersion
      else .error .unknownArgument
    | .plain =>
      match pending with
      | some (f, none) => readArguments g (some (f, some argument)) false rest
      | _ => .error .unknownArgument

/-- Reads the variables of flags that were not given. -/
def readVariables (env : Environment) : Given → List Flag → Except Interrupt Given
  | g, [] => .ok g
  | g, f :: flags => do
    if f.isGiven g then readVariables env g flags
    else
      match env.get? f.variableName with
      | none => readVariables env g flags
      | some text => do
        let g ← f.supply g text
        readVariables env g flags

/-- The settings given by arguments and environment. -/
def Arguments.parse (arguments : List String) (env : Environment) : Except Interrupt Arguments := do
  let g ← readArguments .none none false arguments
  let g ← readVariables env g Flag.all
  return g.complete

end Pacing.Cli
