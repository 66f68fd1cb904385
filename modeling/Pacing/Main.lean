import Pacing.Cli.Help
import Pacing.Cli.Settings
import Pacing.Cli.Threads
import Std.Time.DateTime.Timestamp

/-!
# The program

Everything that touches the world: the arguments, the environment, files, clocks and output.
What to do is decided by the modules this one imports; here it is only done.
-/

namespace Pacing

open Pacing.Run Pacing.Cli

/-! ### The world -/

/-- What the clocks show now. -/
def readClocks : IO Reading := do
  let monotonic ← IO.monoNanosNow
  let wall ← Std.Time.Timestamp.now
  return ⟨monotonic, wall.toNanosecondsSinceUnixEpoch.val⟩

/-- The environment of the process. -/
def readEnvironment : IO Environment := do
  try
    let bytes ← IO.FS.readBinFile "/proc/self/environ"
    let entries := (String.fromUTF8? bytes).getD "" |>.splitOn (String.singleton (Char.ofNat 0))
    return entries.filterMap fun entry =>
      match entry.splitOn "=" with
      | name :: first :: more => some (name, "=".intercalate (first :: more))
      | _ => none
  catch _ =>
    (threadsVariable :: Flag.all.map Flag.variableName).filterMapM fun name => do
      return (← IO.getEnv name).map fun value => (name, value)

/-- The environment file of the working directory or the nearest directory above it. -/
def readDotenv : IO (Option ByteArray) := do
  let mut path := ".env"
  for _ in List.range 32 do
    try
      return some (← IO.FS.readBinFile path)
    catch _ => path := "../" ++ path
  return none

/-- Why a file could not be read or written. -/
def faultOf : IO.Error → FileFault
  | .noFileOrDirectory .. => .notFound
  | .inappropriateType .. => .isDirectory
  | .invalidArgument (some _) .. => .nameTooLong
  | .permissionDenied .. => ⟨"Permission denied (os error 13)"⟩
  | .resourceVanished .. => ⟨"Broken pipe (os error 32)"⟩
  | e => ⟨toString e⟩

/-- The file that the settings may name, read beforehand. -/
def readConfigFile (arguments : List String) (env : Environment) : IO Files := do
  match (Arguments.parse arguments env).toOption.bind (·.config) with
  | none => return fun _ => .error .notFound
  | some path =>
    try
      let bytes ← IO.FS.readBinFile path
      return fun _ => .ok bytes
    catch e => return fun _ => .error (faultOf e)

/-- Number of processors. -/
def countProcessors : IO Nat := do
  try
    let lines := (← IO.FS.readFile "/proc/cpuinfo").splitOn "\n"
    return max 1 (lines.filter fun line => line.startsWith "processor").length
  catch _ => return 1

/-- Number of bytes of memory, with the space for what is swapped out. -/
def readMemory : IO Nat := do
  try
    let lines := (← IO.FS.readFile "/proc/meminfo").splitOn "\n"
    let sizes := lines.filterMap fun line =>
      if line.startsWith "MemTotal:" || line.startsWith "SwapTotal:" then
        (line.splitOn " ").findSome? String.toNat?
      else none
    if sizes.isEmpty then return Word.countLimit
    return sizes.foldl (· + ·) 0 * 1024
  catch _ => return Word.countLimit

/-- Reports events that are not only of interest to a developer. -/
def report (log : List LogEvent) : IO Unit := do
  for event in log do
    match event.level with
    | .trace | .debug => pure ()
    | .info | .warn => IO.eprintln event.line

/-! ### The run -/

/-- Passes on what the sink has taken. A failure of the output is one of the writer. -/
def passOn (t : Timed σ) : IO (Timed σ) := do
  let writer := t.system.writer
  if writer.sink.taken.isEmpty then return t
  let passed : Writer ←
    try
      let stdout ← IO.getStdout
      stdout.write writer.sink.taken
      stdout.flush
      pure { writer with sink := { writer.sink with taken := .empty } }
    catch e => pure (writer.fail "failed to write record" (faultOf e).text)
  let queue := if passed.isOpen then t.system.queue else []
  return { t with system := { t.system with writer := passed, queue := queue } }

/-- Cancels a run whose time is over. -/
def cancelInTime [Driven σ] (t : Timed σ) (now : Nat) (deadline : Option Nat) :
    Timed σ × List LogEvent :=
  if deadline.any (· ≤ now) && !t.system.cancelled then
    let (t, log) := t.act now .cancel
    (t, .durationElapsed :: .shuttingDown :: log)
  else (t, [])

/-- Follows a run until it is over. -/
partial def follow [Driven σ] (t : Timed σ) (deadline : Option Nat) : IO (System σ) := do
  let r ← readClocks
  let now := r.monotonic.toNat
  let (t, log) := cancelInTime t now deadline
  report log
  match t.choose now r with
  | .over => return t.system
  | .act label =>
    let (t, log) := t.act now label
    report log
    follow (← passOn t) deadline
  | .waitUntil instant =>
    let instant :=
      if t.system.cancelled then instant else deadline.elim instant fun d => min instant d
    IO.sleep (UInt32.ofNat (min ((instant - now) / nanosPerMilli + 1) 1000))
    follow t deadline

/-- Runs a launched system to its end. -/
def runSystem [Driven σ] (s : System σ) (deadline : Option Nat) : IO UInt32 := do
  let s ← follow (Timed.ofSystem s) deadline
  match s.result with
  | .ok summary =>
    report [.runEnded summary.emitted summary.written]
    return 0
  | .error failure =>
    IO.eprintln failure.report
    return UInt32.ofNat failureCode

/-- What stands for the exit code of a program that is killed. -/
def killedCode : Nat := 134

/-- Runs a configuration. -/
def runConfig (config : RunConfig) : IO UInt32 := do
  let r ← readClocks
  let deadline := config.duration.map fun d => r.monotonic.toNat + d.nanos
  if let some fault := startFault? (← readMemory) config then
    IO.eprintln fault.message
    return UInt32.ofNat (fault.exitCode?.getD killedCode)
  match launch config .willing (.at r) with
  | .error failure =>
    IO.eprintln failure.report
    return UInt32.ofNat failureCode
  | .ok (launched, log) =>
    report log
    match launched with
    | .items s => runSystem s deadline
    | .streams s => runSystem s deadline
    | .longs s => runSystem s deadline

/-- Ends a program that has nothing to run. -/
def stop : Stop → IO UInt32
  | .interrupted i => do
    match i with
    | .displayHelp => helpLines.forM IO.println
    | .displayVersion => IO.println versionText
    | _ => IO.eprintln (i.complaint ++ "\n\nFor more information, try '--help'.")
    return UInt32.ofNat i.exitCode
  | .failed failure => do
    IO.eprintln failure.report
    return UInt32.ofNat failureCode
  | .aborted assignment => do
    IO.eprintln ("failed to set environment variable " ++ assignment.name)
    return UInt32.ofNat abortCode

/-- The program. -/
def program (arguments : List String) : IO UInt32 := do
  let env ← readEnvironment
  if let some fault := threadFault? (← readMemory) env then
    IO.eprintln fault.message
    return UInt32.ofNat (fault.exitCode?.getD killedCode)
  let dotenv ← readDotenv
  let extended := (dotenv.elim (.ok env) (Dotenv.load env)).toOption.getD env
  let files ← readConfigFile arguments extended
  match prepare arguments env dotenv files (← countProcessors) with
  | .error reason => stop reason
  | .ok config => runConfig config

end Pacing

/-- Runs the program with the arguments of the command line. -/
def main (arguments : List String) : IO UInt32 := Pacing.program arguments
