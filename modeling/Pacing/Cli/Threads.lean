import Pacing.Run.Launch
import Pacing.Cli.Arguments

/-!
# Threads

How many threads serve a run may be said by a variable of the environment. A run gives the same
result with any number of them, but the variable is looked at before anything else, so that a
value which is out of order ends the program even when it is only asked for its version. An
environment file comes too late to set it.
-/

namespace Pacing.Cli

open Pacing.Run

/-- The variable that says how many threads serve a run. -/
def threadsVariable : String := "TOKIO_WORKER_THREADS"

/-- Why the threads cannot be had. -/
inductive ThreadFault where
  /-- The value is no count. -/
  | unreadable (text : String)
  | zero
  /-- The threads are more than a block of memory can be asked for. -/
  | tooMany
  /-- The threads are more than there is memory for. -/
  | memoryExhausted (bytes : Nat)
  deriving DecidableEq, Repr

/-- The text of a thread fault. -/
def ThreadFault.message : ThreadFault → String
  | .unreadable text => threadsVariable ++ " must be a count, got " ++ text
  | .zero => threadsVariable ++ " cannot be set to 0"
  | .tooMany => "capacity overflow"
  | .memoryExhausted bytes => "memory allocation of " ++ toString bytes ++ " bytes failed"

/-- The exit code of a program that meets a thread fault; one without memory is killed and has
none. -/
def ThreadFault.exitCode? : ThreadFault → Option Nat
  | .memoryExhausted _ => none
  | _ => some abortCode

/-- Number of bytes of the block in which the threads stand side by side: a word for each. -/
def threadBlockBytes (threads : Nat) : Nat := threads * 8

/-- Number of bytes the threads take altogether: with its word each has a queue of 256 more. -/
def threadBytes (threads : Nat) : Nat := threads * 2056

/-- What stands in the way of having a number of threads on a machine with so many bytes of
memory. -/
def countFault? (memory threads : Nat) : Option ThreadFault :=
  if threads = 0 then some .zero
  else if Word.highest < threadBlockBytes threads then some .tooMany
  else if memory < threadBytes threads then some (.memoryExhausted (threadBytes threads))
  else none

/-- What is wrong with the number of threads that an environment asks for, if it does. -/
def threadFault? (memory : Nat) (env : Environment) : Option ThreadFault :=
  (env.get? threadsVariable).bind fun text =>
    match readCount text with
    | .ok threads => countFault? memory threads
    | .error _ => some (.unreadable text)

end Pacing.Cli
