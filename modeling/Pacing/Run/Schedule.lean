import Pacing.Run.System

/-!
# Scheduling a run

One particular order of steps: the run gives up its sender before anything else; then the writer
goes first and the workers one after the other, joined when they have ended; and when all of them
rest the clock moves on to the first that wakes up.
-/

namespace Pacing.Run

/-- A run with the instants at which its resting workers wake up, and the worker whose turn is
next. -/
structure Timed (σ : Type) where
  system : System σ
  wakeAt : Array Nat
  cursor : Nat

/-- What to do next. -/
inductive Choice where
  | act (label : Label)
  | waitUntil (instant : Nat)
  | over

namespace Timed

variable [Driven σ]

/-- A run in which nobody rests. -/
def ofSystem (s : System σ) : Timed σ := ⟨s, s.workers.map fun _ => 0, 0⟩

/-- What a worker can do at an instant, or what can be done with it, if anything. -/
def workerLabel (t : Timed σ) (now : Nat) (r : Reading) (i : Nat) : Option Label :=
  match t.system.workers[i]? with
  | none => none
  | some w =>
    match w.phase with
    | .ready => some (.turn i r)
    | .sending _ _ =>
      if t.system.hasRoom || !t.system.writer.isOpen then some (.hand i) else none
    | .resting _ =>
      if t.system.cancelled || t.wakeAt.getD i 0 ≤ now then some (.wake i) else none
    | .stopped => if t.system.holdsSender then none else some (.join i)
    | .joined => none

/-- The instants at which resting workers wake up. -/
def wakeTimes (t : Timed σ) : List Nat :=
  (t.system.workers.zip t.wakeAt).toList.filterMap fun (w, instant) =>
    match w.phase with
    | .resting _ => some instant
    | _ => none

/-- What the first of `count` workers that can do anything can do, looking at them in order from
the given number on and starting again behind the last. -/
def firstLabel (t : Timed σ) (now : Nat) (r : Reading) : (count i : Nat) → Option Label
  | 0, _ => none
  | count + 1, i =>
    let i := if i < t.system.workers.size then i else 0
    match t.workerLabel now r i with
    | some label => some label
    | none => t.firstLabel now r count (i + 1)

/-- What to do next at an instant, with the clocks showing `r`. -/
def choose (t : Timed σ) (now : Nat) (r : Reading) : Choice :=
  if t.system.holdsSender then .act .release
  else
    match t.system.writer.phase, t.system.queue with
    | .writing _, _ => .act .write
    | .idle, _ :: _ => .act .receive
    | phase, _ =>
      match t.firstLabel now r t.system.workers.size t.cursor with
      | some label => .act label
      | none =>
        match t.wakeTimes.min? with
        | some instant => .waitUntil instant
        | none =>
          match phase with
          | .idle => .act .finish
          | _ => .over

/-- Notes when a worker that has gone to rest wakes up, and whose turn is next. -/
def note (t : Timed σ) (now i : Nat) : Timed σ :=
  match (t.system.workers[i]?).map Worker.phase with
  | some (.resting d) => { t with wakeAt := t.wakeAt.setIfInBounds i (now + d.nanos), cursor := i + 1 }
  | _ => { t with cursor := i + 1 }

/-- Does a step at an instant. -/
def act (t : Timed σ) (now : Nat) (label : Label) : Timed σ × List LogEvent :=
  match t.system.step label with
  | none => (t, [])
  | some (system, log) =>
    let t := { t with system := system }
    match label with
    | .turn i _ => (t.note now i, log)
    | .hand i => (t.note now i, log)
    | .wake i => (t.note now i, log)
    | _ => (t, log)

/-- Follows a run in virtual time through no more than `steps` steps, and cancels it as soon as
`enough` holds. What is logged is added to `log`. -/
def simulate (reading : Nat → Reading) (enough : Nat → System σ → Bool) :
    (steps now : Nat) → Timed σ → (log : Array LogEvent) → System σ × Array LogEvent
  | 0, _, t, log => (t.system, log)
  | steps + 1, now, t, log =>
    if !t.system.cancelled && enough now t.system then
      let (t, more) := t.act now .cancel
      simulate reading enough steps now t (log ++ more)
    else
      match t.choose now (reading now) with
      | .act label =>
        let (t, more) := t.act now label
        simulate reading enough steps now t (log ++ more)
      | .waitUntil instant => simulate reading enough steps instant t log
      | .over => (t.system, log)

end Timed

end Pacing.Run
