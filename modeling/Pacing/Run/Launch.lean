import Pacing.Config
import Pacing.Run.Schedule

/-!
# Launching a run

From the settings of a run to its workers: one for a finite source, one for every stream, one
for every instance of a replicated source.
-/

namespace Pacing.Run

/-- The settings of a run. -/
structure RunConfig where
  source : SourceConfig
  workers : Positive
  members : Positive
  duration : Option Duration
  pollInterval : Duration
  channelCapacity : Nat
  deriving DecidableEq, Repr

/-- A launched run, by the kind of its source. -/
inductive Launched where
  | items (s : System (ItemsSource Json))
  | streams (s : System (ItemStream Empty SimpleEvent))
  | longs (s : System (LongStream Unit))

/-- When the parts of a replicated source are made: the readings for each member's supplier and
for each instance by its index. -/
structure LaunchTimes where
  memberAt : Nat → Reading
  instanceAt : Nat → Reading

/-- Everything is made at one reading. -/
def LaunchTimes.at (r : Reading) : LaunchTimes := ⟨fun _ => r, fun _ => r⟩

/-- The instances of all members in order, each with its worker's number: as many as there are on the
members before its own, and its place on that one. -/
def memberInstances (source : LongSource) (members hosted : Positive) (times : LaunchTimes) :
    List (Nat × LongStream Unit) :=
  (List.range members.val).flatMap fun m =>
    ((source.member () (times.memberAt m)).getAll
      (fun config => .create config (times.instanceAt config.index)) m members.val hosted).mapIdx
      fun i made => (m * hosted.val + i, made)

/-- What members log when their suppliers are made. -/
def memberLog (source : LongSource) (members : Positive) (times : LaunchTimes) : List LogEvent :=
  (List.range members.val).map fun m => (source.member () (times.memberAt m)).created

/-- Builds the source of a run and its workers, and returns what is logged up to the first
step. -/
def launch (config : RunConfig) (plan : SinkPlan) (times : LaunchTimes) :
    Except Failure (Launched × List LogEvent) :=
  match config.source.build with
  | .error e => .error ⟨"invalid source configuration", [e.message]⟩
  | .ok (.items source) =>
    let (s, log) := System.start config.pollInterval config.channelCapacity plan [(0, source)]
    .ok (.items s, .runningItems source.remaining :: log)
  | .ok (.itemStream supplier) =>
    let (s, log) := System.start config.pollInterval config.channelCapacity plan
      ((List.range config.workers.val).map fun id => (id, supplier.create))
    .ok (.streams s, .runningStreams config.workers.val supplier.itemsPerSecond :: log)
  | .ok (.longStream source) =>
    let hosted := source.localParallelism config.workers
    let (s, log) := System.start config.pollInterval config.channelCapacity plan
      (memberInstances source config.members hosted times)
    .ok (.longs s, .runningMembers config.members.val hosted.val source.itemsPerSecond
      :: memberLog source config.members times ++ log)

/-! ### Limits

The counts of a run are natural numbers here. What they are made for has limits: a queue, and
the words that hold the numbers of workers and instances. -/

/-- Largest number of batches a queue can be made for. -/
def queueLimit : Nat := 2305843009213693951

/-- Why a run cannot be started although its settings are accepted. -/
inductive LaunchFault where
  | queueTooLong
  | tooManyInstances
  /-- The instances of a member are more than a block of memory can be asked for. -/
  | instancesTooLarge
  /-- The instances of a member are more than there is memory for. -/
  | memoryExhausted (bytes : Nat)
  deriving DecidableEq, Repr

/-- The text of a launch fault. -/
def LaunchFault.message : LaunchFault → String
  | .queueTooLong =>
    "a semaphore may not have more than MAX_PERMITS permits (" ++ toString queueLimit ++ ")"
  | .tooManyInstances => "attempt to multiply with overflow"
  | .instancesTooLarge => "capacity overflow"
  | .memoryExhausted bytes => "memory allocation of " ++ toString bytes ++ " bytes failed"

/-- The exit code of a program that breaks off. -/
def abortCode : Nat := 101

/-- The exit code of a program that meets a launch fault; one without memory is killed and has
none. -/
def LaunchFault.exitCode? : LaunchFault → Option Nat
  | .memoryExhausted _ => none
  | _ => some abortCode

/-- Number of instances of a replicated source among all members. -/
def instanceCount (source : LongSource) (config : RunConfig) : Nat :=
  MemberSupplier.clusterSize config.members.val (source.localParallelism config.workers)

/-- Number of bytes an instance takes: five words. -/
def instanceBytes : Nat := 40

/-- Number of bytes a member's instances take. They stand side by side in one block. -/
def memberBytes (source : LongSource) (config : RunConfig) : Nat :=
  (source.localParallelism config.workers).val * instanceBytes

/-- What stands in the way of starting a run with a given source on a machine that can give a block
of so many bytes. No block can be asked for that is larger than the largest signed word. -/
def launchFault? (memory : Nat) (config : RunConfig) (source : ConfiguredSource) :
    Option LaunchFault :=
  if queueLimit < config.channelCapacity then some .queueTooLong
  else
    match source with
    | .longStream source =>
      if Word.countLimit ≤ instanceCount source config then some .tooManyInstances
      else if Word.highest < memberBytes source config then some .instancesTooLarge
      else if memory < memberBytes source config then
        some (.memoryExhausted (memberBytes source config))
      else none
    | _ => none

/-- What stands in the way of starting a run, if its source can be built. -/
def startFault? (memory : Nat) (config : RunConfig) : Option LaunchFault :=
  config.source.build.toOption.bind (launchFault? memory config)

/-! ### Runs in virtual time -/

/-- What a run left behind: its result, the bytes that were written, and its log. -/
structure Finished where
  result : Except Failure Summary
  output : ByteArray
  log : List LogEvent

/-- Runs a launched system in virtual time. -/
def finish [Driven σ] (s : System σ) (cancelled : Bool) (steps : Nat) (reading : Nat → Reading)
    (enough : Nat → Nat → Bool) (log : List LogEvent) : Finished :=
  let s := { s with cancelled := cancelled }
  let (s, log) := (Timed.ofSystem s).simulate reading
    (fun now s => enough now s.writer.written) steps 0 log.toArray
  ⟨s.result, s.writer.sink.taken, log.toList⟩

/-- Runs a configuration in virtual time through at most `steps` steps. It is cancelled before
the first step or not, and as soon as `enough` holds of the instant and of the number of records
written. -/
def simulate (config : RunConfig) (plan : SinkPlan) (cancelled : Bool) (steps : Nat)
    (reading : Nat → Reading) (enough : Nat → Nat → Bool) : Finished :=
  match launch config plan (.at (reading 0)) with
  | .error failure => ⟨.error failure, .empty, []⟩
  | .ok (.items s, log) => finish s cancelled steps reading enough log
  | .ok (.streams s, log) => finish s cancelled steps reading enough log
  | .ok (.longs s, log) => finish s cancelled steps reading enough log

end Pacing.Run
