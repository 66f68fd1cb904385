import Pacing.Error

/-!
# Rates and buckets

A rate is a number of items per second. It is used as the emission period in nanoseconds,
rounded down, so a rate that does not divide a second runs slightly fast. Event times of a
stream are wall-clock readings rounded down to a multiple of the period.
-/

namespace Pacing

/-- The emission period of a rate within `1 ..= maxItemsPerSecond`. -/
def periodNanos (itemsPerSecond : Int) : Except Error Int :=
  if 1 ≤ itemsPerSecond ∧ itemsPerSecond ≤ maxItemsPerSecond then
    .ok (nanosPerSecond / itemsPerSecond)
  else .error (.invalidRate itemsPerSecond)

theorem periodNanos_eq_ok {rate period : Int} :
    periodNanos rate = .ok period ↔
      (1 ≤ rate ∧ rate ≤ maxItemsPerSecond) ∧ period = nanosPerSecond / rate := by
  unfold periodNanos
  split <;> rename_i h
  · simp [h, eq_comm]
  · simp [h]

theorem periodNanos_eq_error {rate : Int} {e : Error} :
    periodNanos rate = .error e ↔
      ¬ (1 ≤ rate ∧ rate ≤ maxItemsPerSecond) ∧ .invalidRate rate = e := by
  unfold periodNanos
  split <;> simp_all

/-- The period of an accepted rate is at least one nanosecond. -/
theorem periodNanos_pos {rate period : Int} (h : periodNanos rate = .ok period) : 0 < period := by
  obtain ⟨⟨hlow, hhigh⟩, rfl⟩ := periodNanos_eq_ok.mp h
  have hle : rate ≤ (nanosPerSecond : Int) := by
    unfold maxItemsPerSecond at hhigh
    unfold nanosPerSecond
    omega
  have := (Int.le_ediv_iff_mul_le (by omega : 0 < rate)).mpr (by omega : 1 * rate ≤ nanosPerSecond)
  omega

/-- The last multiple of the period not after a wall-clock reading, in milliseconds rounded
down. -/
def bucketMillis (wallNanos periodNanos : Int) : Int :=
  (wallNanos - wallNanos % periodNanos) / nanosPerMilli

/-- Why a reading has no bucket. -/
inductive BucketFault where
  | zeroPeriod
  | overflow
  deriving DecidableEq, Repr

/-- The text of a bucket fault. -/
def BucketFault.message : BucketFault → String
  | .zeroPeriod => "attempt to calculate the remainder with a divisor of zero"
  | .overflow => "attempt to calculate the remainder with overflow"

/-- The bucket of any reading and period. A period of zero has no multiples to round to, and
the lowest reading cannot be divided by minus one within a word. -/
def checkedBucketMillis (wallNanos periodNanos : Int) : Except BucketFault Int :=
  if periodNanos = 0 then .error .zeroPeriod
  else if wallNanos = -9223372036854775808 ∧ periodNanos = -1 then .error .overflow
  else .ok (bucketMillis wallNanos periodNanos)

end Pacing
