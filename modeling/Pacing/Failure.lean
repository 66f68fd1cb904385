/-!
# Failures

A failure of a run: what could not be done, and why, from the nearest cause to the last.
-/

namespace Pacing

/-- A message and the causes behind it. -/
structure Failure where
  message : String
  causes : List String
  deriving DecidableEq, Repr

namespace Failure

/-- The message and the causes. -/
def chain (f : Failure) : List String := f.message :: f.causes

/-- Causes in numbered lines. -/
def numbered : (index : Nat) → List String → String
  | _, [] => ""
  | index, cause :: causes =>
    let number := toString index
    "\n" ++ String.ofList (List.replicate (5 - number.length) ' ') ++ number ++ ": " ++ cause
      ++ numbered (index + 1) causes

/-- What a program prints about a failure before it ends. A single cause is not numbered. -/
def report (f : Failure) : String :=
  "Error: " ++ f.message ++
    match f.causes with
    | [] => ""
    | [cause] => "\n\nCaused by:\n    " ++ cause
    | causes => "\n\nCaused by:" ++ numbered 0 causes

end Failure

end Pacing
