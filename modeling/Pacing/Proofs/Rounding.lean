import Mathlib.Algebra.Order.Group.Unbundled.Int
import Mathlib.Algebra.Order.Ring.Abs
import Mathlib.Algebra.Order.Ring.Int
import Mathlib.Order.Bounds.Basic
import Pacing.Proofs.Overflow

/-!
# Rounding readings down

The bucket of a reading is found by rounding down twice, to the grid of the period and to the grid
of milliseconds. The grids need not fit each other, and a period may be negative: it has the grid of
its absolute value. Where one grid holds the other, rounding twice is rounding once.

* `isGreatest_floor` and `isGreatest_bucketMillis` are the two roundings, and
  `wall_le_bucketMillis_mul_add` says what they lose together.
* `bucketMillis_of_whole_millis` and `bucketMillis_of_dvd_milli` are the cases of grids that fit.
* `hasBucket_iff` says of which words a bucket is computed without a fault.
* `buckets_round_down` is the statement about all of them.
-/

namespace Pacing

/-! ### Periods of either sign -/

section Sign

variable (wall period : Int)

theorem bucketMillis_neg : bucketMillis wall (-period) = bucketMillis wall period := by
  rw [bucketMillis, bucketMillis, Int.emod_neg]

theorem bucketMillis_abs : bucketMillis wall |period| = bucketMillis wall period := by
  rw [bucketMillis, bucketMillis, Int.emod_abs]

end Sign

/-- The multiples of a period that are not after a reading. -/
def multiplesUpTo (period wall : Int) : Set Int := {n | period ∣ n ∧ n ≤ wall}

theorem multiplesUpTo_abs (period wall : Int) :
    multiplesUpTo |period| wall = multiplesUpTo period wall := by
  simp only [multiplesUpTo, abs_dvd]

section Grids

variable {wall period : Int}

theorem milli_pos : (0 : Int) < nanosPerMilli := by decide

/-- The first rounding, to the grid of the period. -/
theorem isGreatest_floor (wall : Int) (hperiod : period ≠ 0) :
    IsGreatest (multiplesUpTo period wall) (wall - wall % period) := by
  have hnonneg := Int.emod_nonneg wall hperiod
  have hlt := Int.emod_lt_abs wall hperiod
  refine ⟨⟨Int.dvd_self_sub_emod, by omega⟩, ?_⟩
  rintro n ⟨hmultiple, hn⟩
  by_contra hlater
  -- The next multiple is a period later, and that is after the reading.
  have hapart : |period| ≤ n - (wall - wall % period) :=
    Int.le_of_dvd (by omega) ((abs_dvd ..).mpr (Int.dvd_sub hmultiple Int.dvd_self_sub_emod))
  omega

theorem floor_mono (hperiod : period ≠ 0) {later : Int} (h : wall ≤ later) :
    wall - wall % period ≤ later - later % period := by
  have hgrid := (isGreatest_floor wall hperiod).1
  exact (isGreatest_floor later hperiod).2 ⟨hgrid.1, Int.le_trans hgrid.2 h⟩

/-- The second rounding, to the grid of milliseconds. -/
theorem isGreatest_bucketMillis (wall period : Int) :
    IsGreatest {millis : Int | millis * nanosPerMilli ≤ wall - wall % period}
      (bucketMillis wall period) :=
  ⟨Int.ediv_mul_le _ (Int.ne_of_gt milli_pos), fun _ h => (Int.le_ediv_iff_mul_le milli_pos).mpr h⟩

/-- Each rounding loses less than a step of its grid. -/
theorem wall_le_bucketMillis_mul_add (hperiod : period ≠ 0) :
    wall ≤ bucketMillis wall period * nanosPerMilli + |period| + nanosPerMilli - 2 := by
  have hperiods := Int.emod_lt_abs wall hperiod
  have hmillis := Int.lt_ediv_add_one_mul_self (wall - wall % period) milli_pos
  rw [Int.add_mul, Int.one_mul] at hmillis
  rw [bucketMillis]
  omega

/-- The bound is reached: a multiple of seven nanoseconds comes just before a millisecond, and the
reading just before the next multiple. -/
example : bucketMillis 1000005 (-7) * nanosPerMilli + |(-7)| + nanosPerMilli - 2 = 1000005 := by
  decide

theorem bucketMillis_le_bucketMillis (hperiod : period ≠ 0) {later : Int} (h : wall ≤ later) :
    bucketMillis wall period ≤ bucketMillis later period :=
  Int.ediv_le_ediv milli_pos (floor_mono hperiod h)

/-! ### Grids that fit -/

/-- A reading on the grid of the period is only rounded to milliseconds. -/
theorem bucketMillis_of_dvd (h : period ∣ wall) :
    bucketMillis wall period = wall / nanosPerMilli := by
  rw [bucketMillis, Int.emod_eq_zero_of_dvd h, Int.sub_zero]

/-- A period of whole milliseconds: milliseconds can be rounded in place of nanoseconds. -/
theorem bucketMillis_of_whole_millis (wall : Int) {millis : Int}
    (h : |period| = millis * nanosPerMilli) :
    bucketMillis wall period = millis * (wall / nanosPerMilli / millis) := by
  rw [← bucketMillis_abs, h, bucketMillis_eq, ← Int.mul_assoc,
    Int.mul_ediv_cancel _ (Int.ne_of_gt milli_pos), Int.mul_comm millis nanosPerMilli,
    Int.ediv_mul_of_nonneg (Int.le_of_lt milli_pos), Int.mul_comm]

/-- Then the second rounding loses nothing. -/
theorem bucketMillis_mul_of_milli_dvd (h : (nanosPerMilli : Int) ∣ period) :
    bucketMillis wall period * nanosPerMilli = wall - wall % period :=
  Int.ediv_mul_cancel (Int.dvd_trans h Int.dvd_self_sub_emod)

/-- A period that divides the millisecond: the first rounding passes no whole millisecond. -/
theorem bucketMillis_of_dvd_milli (hperiod : period ≠ 0) (h : period ∣ nanosPerMilli) :
    bucketMillis wall period = wall / nanosPerMilli := by
  have hmultiple : wall / nanosPerMilli * nanosPerMilli ∈ multiplesUpTo period wall :=
    ⟨Int.dvd_mul_of_dvd_right h, Int.ediv_mul_le _ (Int.ne_of_gt milli_pos)⟩
  apply Int.le_antisymm
  · exact Int.ediv_le_ediv milli_pos (isGreatest_floor wall hperiod).1.2
  · exact (isGreatest_bucketMillis wall period).2 ((isGreatest_floor wall hperiod).2 hmultiple)

end Grids

/-! ### Buckets in words -/

/-- Two words for which a bucket can be computed: the remainder has a divisor and no quotient that
is not a word, and the reading rounded to the grid of the period is a word. -/
structure Roundable (wall period : Int) : Prop where
  wall_word : Word.InRange wall
  period_word : Word.InRange period
  period_ne_zero : period ≠ 0
  divisible : ¬ (wall = Word.lowest ∧ period = -1)
  floor_word : Word.InRange (wall - wall % |period|)

/-- The bucket of two words is computed without a fault, and it is `millis`. -/
structure HasBucket (wall period millis : Int) : Prop where
  wall_word : Word.InRange wall
  period_word : Word.InRange period
  divided : checkedBucketMillis wall period = .ok millis
  inWords : ExactInWords (fun word => bucketMillisIn word wall period) millis

section Words

variable {wall period millis : Int}

theorem checkedBucketMillis_eq_ok : checkedBucketMillis wall period = .ok millis ↔
    period ≠ 0 ∧ ¬ (wall = Word.lowest ∧ period = -1) ∧ millis = bucketMillis wall period := by
  unfold checkedBucketMillis
  split
  case isTrue hzero => simp [hzero]
  case isFalse hnonzero =>
    split
    case isTrue hlowest => simp [Word.lowest, hlowest]
    case isFalse hdivisible => simp [hnonzero, Word.lowest, hdivisible, eq_comm]

theorem Roundable.floor (h : Roundable wall period) : Word.InRange (wall - wall % period) :=
  Int.emod_abs wall period ▸ h.floor_word

theorem Roundable.hasBucket (h : Roundable wall period) :
    HasBucket wall period (bucketMillis wall period) where
  wall_word := h.wall_word
  period_word := h.period_word
  divided := checkedBucketMillis_eq_ok.mpr ⟨h.period_ne_zero, h.divisible, rfl⟩
  inWords := by
    apply ExactInWords.of_faithful
    intro word hword
    rw [bucketMillisIn, hword _ h.floor]
    rfl

/-- **Words.** A bucket is computed of roundable words and of no others. -/
theorem hasBucket_iff :
    HasBucket wall period millis ↔ Roundable wall period ∧ millis = bucketMillis wall period := by
  constructor
  · intro h
    obtain ⟨hnonzero, hdivisible, hmillis⟩ := checkedBucketMillis_eq_ok.mp h.divided
    refine ⟨⟨h.wall_word, h.period_word, hnonzero, hdivisible, ?_⟩, hmillis⟩
    rw [Int.emod_abs]
    by_contra hfloor
    have hfault := h.inWords.checked
    rw [bucketMillisIn, Word.checked, if_neg hfloor] at hfault
    cases hfault
  · rintro ⟨h, rfl⟩
    exact h.hasBucket

/-- Later readings are rounded to no lower words. -/
theorem Roundable.later (h : Roundable wall period) {later : Int} (hle : wall ≤ later)
    (hword : later ≤ Word.highest) : Roundable later period where
  wall_word := ⟨Int.le_trans h.wall_word.1 hle, hword⟩
  period_word := h.period_word
  period_ne_zero := h.period_ne_zero
  divisible := by
    rintro ⟨rfl, hperiod⟩
    exact h.divisible ⟨Int.le_antisymm hle h.wall_word.1, hperiod⟩
  floor_word := by
    rw [Int.emod_abs]
    exact ⟨Int.le_trans h.floor.1 (floor_mono h.period_ne_zero hle),
      Int.le_trans (isGreatest_floor later h.period_ne_zero).1.2 hword⟩

/-- A bucket of whole milliseconds is a reading with the same bucket. -/
theorem Roundable.again (h : Roundable wall period) (hmilli : (nanosPerMilli : Int) ∣ period) :
    HasBucket (bucketMillis wall period * nanosPerMilli) period (bucketMillis wall period) := by
  have hgrid : period ∣ wall - wall % period := Int.dvd_self_sub_emod
  rw [bucketMillis_mul_of_milli_dvd hmilli, hasBucket_iff]
  refine ⟨⟨h.floor, h.period_word, h.period_ne_zero, ?_, ?_⟩, ?_⟩
  · rintro ⟨-, rfl⟩
    exact absurd hmilli (by decide)
  · rw [Int.emod_abs, Int.emod_eq_zero_of_dvd hgrid, Int.sub_zero]
    exact h.floor
  · exact (bucketMillis_of_dvd hgrid).symm

end Words

/-- **Rounding.** The bucket of a reading and a period of either sign, of which words can compute a
bucket:

* words do compute it, and for the period of the other sign they compute the same, if they can;
* it is the last millisecond that is not after the last multiple of the period that is not after the
  reading, so it is at most the two grids, less a nanosecond on each, before the reading;
* every later reading has a bucket too, and no earlier one;
* if the period is of whole milliseconds, the bucket is that of the reading in milliseconds rounded
  to a multiple of them, and rounding it again, in either unit, changes nothing;
* if the period divides the millisecond, the bucket is the reading in milliseconds. -/
theorem buckets_round_down {wall period : Int} (h : Roundable wall period) :
    let millis := bucketMillis wall period
    (HasBucket wall period millis ∧
      (Roundable wall (-period) → HasBucket wall (-period) millis)) ∧
    (∃ floor, IsGreatest (multiplesUpTo |period| wall) floor ∧
      IsGreatest {m : Int | m * nanosPerMilli ≤ floor} millis) ∧
    (millis * nanosPerMilli ≤ wall ∧
      wall ≤ millis * nanosPerMilli + |period| + nanosPerMilli - 2) ∧
    (∀ later, wall ≤ later → later ≤ Word.highest →
      ∃ laterMillis, HasBucket later period laterMillis ∧ millis ≤ laterMillis) ∧
    (∀ periodMillis, |period| = periodMillis * nanosPerMilli →
      millis = periodMillis * (wall / nanosPerMilli / periodMillis) ∧
      HasBucket (millis * nanosPerMilli) period millis ∧
      periodMillis * (millis / periodMillis) = millis) ∧
    (|period| ∣ nanosPerMilli → millis = wall / nanosPerMilli) := by
  intro millis
  have hgrid := isGreatest_floor wall h.period_ne_zero
  have hmillis := isGreatest_bucketMillis wall period
  refine ⟨⟨h.hasBucket, ?_⟩, ?_, ⟨?_, wall_le_bucketMillis_mul_add h.period_ne_zero⟩, ?_, ?_, ?_⟩
  · intro hnegated
    exact hasBucket_iff.mpr ⟨hnegated, (bucketMillis_neg ..).symm⟩
  · exact ⟨_, (multiplesUpTo_abs ..).symm ▸ hgrid, hmillis⟩
  · exact Int.le_trans hmillis.1 hgrid.1.2
  · intro later hle hword
    exact ⟨_, (h.later hle hword).hasBucket, bucketMillis_le_bucketMillis h.period_ne_zero hle⟩
  · intro periodMillis hwhole
    have hrounded := bucketMillis_of_whole_millis wall hwhole
    have hmilli : (nanosPerMilli : Int) ∣ period := (dvd_abs ..).mp (hwhole ▸ Int.dvd_mul_left ..)
    exact ⟨hrounded, h.again hmilli, Int.mul_ediv_cancel' ⟨_, hrounded⟩⟩
  · intro hdvd
    exact bucketMillis_of_dvd_milli h.period_ne_zero ((abs_dvd ..).mp hdvd)

/-- The last nanosecond before the epoch, with a period of minus 200 ms and with one of 250 ns. -/
theorem buckets_round_down_before_epoch :
    Roundable (-1) (-200000000) ∧
      HasBucket (-1) (-200000000) (-200) ∧ HasBucket (-1) 200000000 (-200) ∧
      HasBucket (-200000000) (-200000000) (-200) ∧
      (∃ millis, HasBucket 0 (-200000000) millis ∧ -200 ≤ millis) ∧
      Roundable (-1) 250 ∧ HasBucket (-1) 250 (-1) := by
  have hlong : Roundable (-1) (-200000000) :=
    ⟨by decide, by decide, by decide, by decide, by decide⟩
  have hshort : Roundable (-1) 250 := ⟨by decide, by decide, by decide, by decide, by decide⟩
  obtain ⟨⟨hbucket, hnegated⟩, -, -, hlater, hwhole, -⟩ := buckets_round_down hlong
  obtain ⟨⟨hinvisible, -⟩, -⟩ := buckets_round_down hshort
  exact ⟨hlong, hbucket, hnegated ⟨by decide, by decide, by decide, by decide, by decide⟩,
    (hwhole 200 (by decide)).2.1, hlater 0 (by decide) (by decide), hshort, hinvisible⟩

end Pacing
