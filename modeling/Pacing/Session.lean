import Pacing.Buffer
import Pacing.Poll

/-!
# Sessions

Any number of sources on one manual clock, polled into any number of buffers in any order.
Sources share nothing but the clock they are polled at; buffers come into being on first use.
-/

namespace Pacing

/-- The clock, the sources and the buffers of a session. -/
structure Session (σ α : Type) where
  clock : Reading
  sources : Array σ
  buffers : Array (TimestampedBuffer α)

/-- One thing done in a session. -/
inductive Session.Action (σ : Type) where
  /-- Adds a source made at the current reading. -/
  | create (make : Reading → σ)
  /-- Polls a source into a buffer. -/
  | poll (source buffer : Nat)
  /-- Takes the items of a buffer. -/
  | drain (buffer : Nat)
  /-- Moves the clock. -/
  | move (m : ManualClock.Move)

/-- What came of one action. -/
inductive Session.Outcome (ε α : Type) where
  | created
  | polled (outcome : Except ε Poll) (added : List (Timestamped α)) (log : List LogEvent)
  | drained (items : TimestampedBuffer α)
  | moved (now : Reading)
  /-- There is no source with that number. -/
  | absent

namespace Session

/-- A session without sources. -/
def start (clock : Reading) : Session σ α := ⟨clock, #[], #[]⟩

/-- The buffers extended with empty ones so that there is one with the given number. -/
def withBuffer (buffers : Array (TimestampedBuffer α)) (b : Nat) : Array (TimestampedBuffer α) :=
  buffers ++ Array.replicate (b + 1 - buffers.size) #[]

/-- The items of a buffer. -/
def items (s : Session σ α) (b : Nat) : TimestampedBuffer α := s.buffers.getD b #[]

/-- Number of items in a buffer. -/
def length (s : Session σ α) (b : Nat) : Nat := (s.items b).size

/-- Does one thing. -/
def step [Paced σ ε α] (s : Session σ α) : Action σ → Session σ α × Outcome ε α
  | .create make => ({ s with sources := s.sources.push (make s.clock) }, .created)
  | .poll i b =>
    match s.sources[i]? with
    | none => (s, .absent)
    | some source =>
      let p := Paced.poll source s.clock
      ({ s with
          sources := s.sources.setIfInBounds i p.source
          buffers := (withBuffer s.buffers b).modify b (TimestampedBuffer.addAll · p.added) },
        .polled p.outcome p.added p.log)
  | .drain b =>
    ({ s with buffers := (withBuffer s.buffers b).modify b fun _ => #[] }, .drained (s.items b))
  | .move m =>
    let clock := m.apply s.clock
    ({ s with clock := clock }, .moved clock)

/-- Does a list of things in order. -/
def run [Paced σ ε α] (s : Session σ α) : List (Action σ) → Session σ α × List (Outcome ε α)
  | [] => (s, [])
  | action :: actions =>
    let (s, outcome) := s.step action
    let (s, outcomes) := s.run actions
    (s, outcome :: outcomes)

end Session

end Pacing
