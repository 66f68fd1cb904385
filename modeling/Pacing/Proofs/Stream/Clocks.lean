import Mathlib.Data.List.Forall2
import Pacing.Proofs.Stream.Batch

/-!
# Pace and clocks

A stream reads two clocks. The monotonic one paces it, and only differences of its readings matter;
the wall clock dates items, and nothing else. So a stream that cannot fail keeps its pace when it
is polled on a monotonic clock with another origin and on any other wall clock.

* `Aligned` relates two streams on such clocks; `Aligned.poll` is one poll of both and
  `Aligned.polls` a run.
* `pace_ignores_wall_and_origin` is the statement about new streams.
-/

namespace Pacing

variable {α : Type}

/-- The polls of two runs come at the same instants, told by monotonic clocks that differ by `c`.
What the wall clocks show is not related. -/
def SameInstants (c : Int) (rs rs' : List Reading) : Prop :=
  List.Forall₂ (fun r r' => r'.monotonic = r.monotonic + c) rs rs'

/-- The time until an instant does not depend on where the clock began, also if it is cut off at the
end of the range. -/
theorem Poll.pendingUntil_add (now due c : Int) :
    Poll.pendingUntil (now + c) (due + c) = Poll.pendingUntil now due := by
  unfold Poll.pendingUntil Word.satSub
  rw [show due + c - (now + c) = due - now by omega]

namespace ItemStream

/-- Two streams are at the same point of their runs, on monotonic clocks that differ by `c`. -/
structure Aligned (c : Int) (s s' : ItemStream Empty α) : Prop where
  period_eq : s'.period = s.period
  sequence_eq : s'.sequence = s.sequence
  schedule_eq : s'.schedule = s.schedule.map (· + c)

/-- Two polls report the same and log the same, and leave their streams at the same point. -/
structure SamePace (c : Int) (p p' : Polled (ItemStream Empty α) Empty α) : Prop where
  outcome_eq : p'.outcome = p.outcome
  log_eq : p'.log = p.log
  aligned : Aligned c p.source p'.source

/-- All items of a poll carry the bucket of its wall-clock reading. -/
def DatedBy (period : Int) (r : Reading) (p : Polled (ItemStream Empty α) Empty α) : Prop :=
  ∀ t ∈ p.added, t.timestamp = bucketMillis r.wall period

/-- A new stream is at the same point on all clocks. -/
theorem aligned_ofPeriod (c period : Int) (generate : Generator Empty α) :
    Aligned c (ofPeriod period generate) (ofPeriod period generate) := ⟨rfl, rfl, rfl⟩

section Poll

variable {c : Int} {s s' : ItemStream Empty α} {r r' : Reading}

theorem Aligned.slot_eq (h : Aligned c s s') (hr : r'.monotonic = r.monotonic + c) (j : Nat) :
    s'.slot r' j = s.slot r j + c := by
  unfold slot
  rw [h.period_eq, h.schedule_eq, hr]
  cases s.schedule with
  | none =>
    simp only [Option.map_none, Option.getD_none]
    omega
  | some first =>
    simp only [Option.map_some, Option.getD_some]
    omega

/-- Both streams hand over as many items. -/
theorem Aligned.length_eq (h : Aligned c s s') (hperiod : 0 < s.period)
    (hr : r'.monotonic = r.monotonic + c) :
    (s'.poll r').added.length = (s.poll r).added.length := by
  obtain ⟨due, howed⟩ := s.exists_owed r hperiod
  have howed' : Owed (s'.slot r') r'.monotonic due := by
    intro j
    rw [h.slot_eq hr, hr, howed j]
    omega
  rw [poll_length_of_reliable howed, poll_length_of_reliable howed']

/-- **Step.** Aligned streams, polled at one instant, do the same and stay aligned. -/
theorem Aligned.poll (h : Aligned c s s') (hperiod : 0 < s.period)
    (hr : r'.monotonic = r.monotonic + c) : SamePace c (s.poll r) (s'.poll r') := by
  have hlength := h.length_eq hperiod hr
  refine ⟨?_, ?_, ?_⟩
  · rw [poll_outcome_of_reliable, poll_outcome_of_reliable, hlength, h.slot_eq hr, hr,
      Poll.pendingUntil_add]
  · rw [poll_log, poll_log, hlength, h.slot_eq hr, hr]
    simp only [Int.add_le_add_iff_right, Int.add_sub_add_right]
  · rw [poll_source, poll_source, hlength, h.slot_eq hr]
    exact ⟨h.period_eq, congrArg (· + _) h.sequence_eq, rfl⟩

end Poll

/-- **Run.** Aligned streams, polled at the same instants, do the same at every poll. -/
theorem Aligned.polls {c : Int} {s s' : ItemStream Empty α} (h : Aligned c s s')
    (hperiod : 0 < s.period) {rs rs' : List Reading} (hrs : SameInstants c rs rs') :
    List.Forall₂ (SamePace c) (Paced.polls s rs) (Paced.polls s' rs') := by
  unfold SameInstants at hrs
  induction hrs generalizing s s' with
  | nil => exact .nil
  | cons hr _ ih =>
    have hpoll := h.poll hperiod hr
    exact .cons hpoll (ih hpoll.aligned hperiod)

/-- Runs at one pace report the same. -/
theorem outcomes_eq_of_samePace {c : Int} {ps ps' : List (Polled (ItemStream Empty α) Empty α)}
    (h : List.Forall₂ (SamePace c) ps ps') : ps'.map Polled.outcome = ps.map Polled.outcome := by
  induction h with
  | nil => rfl
  | cons h _ ih => rw [List.map_cons, List.map_cons, h.outcome_eq, ih]

/-- The items of every poll of a run carry the bucket of that poll. -/
theorem polls_dated (s : ItemStream Empty α) (rs : List Reading) :
    List.Forall₂ (DatedBy s.period) rs (Paced.polls s rs) := by
  induction rs generalizing s with
  | nil => exact .nil
  | cons r rs ih => exact .cons (s.poll_timestamp r) (ih (s.poll r).source)

/-- **Clocks.** A new stream of any accepted rate and any generator that cannot fail, polled twice
at the same instants, which two monotonic clocks tell that differ by `c` at every poll and may go
back, and at any readings of the wall clock:

* every poll of one run reports and logs what the same poll of the other does, the numbers are the
  same after it, and the schedules differ by `c`;
* in every run the items of a poll are dated by the wall-clock reading of that poll alone. -/
theorem pace_ignores_wall_and_origin (generate : Generator Empty α) {rate : Int}
    (hrate : 1 ≤ rate ∧ rate ≤ maxItemsPerSecond) :
    ∃ s, ofRate rate generate = .ok s ∧
      (∀ (c : Int) (rs rs' : List Reading), SameInstants c rs rs' →
        List.Forall₂ (SamePace c) (Paced.polls s rs) (Paced.polls s rs')) ∧
      ∀ rs : List Reading,
        List.Forall₂ (DatedBy (nanosPerSecond / rate)) rs (Paced.polls s rs) := by
  refine ⟨_, ofRate_eq_ok hrate generate, ?_, ?_⟩
  · intro c rs rs' hrs
    exact (aligned_ofPeriod c _ generate).polls (period_pos hrate) hrs
  · intro rs
    exact polls_dated (ofPeriod _ generate) rs

/-- One item a millisecond, polled on a clock that begins at zero and on one that begins two
milliseconds before; the monotonic clocks go back once and the wall clocks leap. The second run
reports what the first one does. -/
theorem pace_ignores_wall_and_origin_of_leaping_clocks :
    (1 ≤ (1000 : Int) ∧ 1000 ≤ maxItemsPerSecond) ∧
      SameInstants (-2000000) [⟨0, 7⟩, ⟨2500000, -1⟩, ⟨900000, 3⟩]
        [⟨-2000000, 0⟩, ⟨500000, 86400000000000⟩, ⟨-1100000, 5⟩] ∧
      ∃ s : ItemStream Empty SimpleEvent, ofRate 1000 .slots = .ok s ∧
        (Paced.polls s [⟨-2000000, 0⟩, ⟨500000, 86400000000000⟩, ⟨-1100000, 5⟩]).map
            Polled.outcome =
          [.ok (.ready 1), .ok (.ready 2), .ok (.pending ⟨2100000⟩)] := by
  have hrate : 1 ≤ (1000 : Int) ∧ 1000 ≤ maxItemsPerSecond := by decide
  have hinstants : SameInstants (-2000000) [⟨0, 7⟩, ⟨2500000, -1⟩, ⟨900000, 3⟩]
      [⟨-2000000, 0⟩, ⟨500000, 86400000000000⟩, ⟨-1100000, 5⟩] :=
    .cons rfl (.cons rfl (.cons rfl .nil))
  obtain ⟨s, hs, hpace, -⟩ :=
    pace_ignores_wall_and_origin (.slots : Generator Empty SimpleEvent) hrate
  refine ⟨hrate, hinstants, s, hs, ?_⟩
  obtain rfl : ofPeriod 1000000 .slots = s := Except.ok.inj hs
  have hfirst : (Paced.polls (ofPeriod 1000000 (.slots : Generator Empty SimpleEvent))
      [⟨0, 7⟩, ⟨2500000, -1⟩, ⟨900000, 3⟩]).map Polled.outcome =
        [.ok (.ready 1), .ok (.ready 2), .ok (.pending ⟨2100000⟩)] := rfl
  rw [outcomes_eq_of_samePace (hpace _ _ _ hinstants), hfirst]

end ItemStream

end Pacing
