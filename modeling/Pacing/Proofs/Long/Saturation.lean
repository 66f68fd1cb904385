import Pacing.Proofs.Long.Track

/-!
# Event times at the ends of the range

The start of an instance, the instant a value is due and its event time are computed in words that
stop at the ends of their range. Stopping keeps the order of instants and passes no bound within the
range, so that event times never decrease and are never ahead of the wall clock, whatever an
instance is made of.

* `dueAt_mono` and `stamp_mono` say that later values are due, and dated, no earlier.
* `stamp_le_wall` bounds the event time of a value that is due.
* `timestamps_ordered_never_ahead` is the statement about runs.
-/

namespace Pacing

variable {π : Type}

namespace LongStream

section Stamps

variable {s : LongStream π}

/-- A later value is due no earlier. -/
theorem dueAt_mono (hperiod : 0 ≤ s.period) {v w : Int} (h : v ≤ w) : s.dueAt v ≤ s.dueAt w := by
  have helapsed : Word.satMul v s.period ≤ Word.satMul w s.period :=
    Word.clamp_mono (Int.mul_le_mul_of_nonneg_right h hperiod)
  exact Word.clamp_mono (Int.add_le_add_left helapsed s.start)

/-- A later value is dated no earlier. -/
theorem stamp_mono (hperiod : 0 ≤ s.period) {v w : Int} (h : v ≤ w) : s.stamp v ≤ s.stamp w := by
  have hnanos : Word.satAdd (s.dueAt v) s.offset ≤ Word.satAdd (s.dueAt w) s.offset :=
    Word.clamp_mono (Int.add_le_add_right (dueAt_mono hperiod h) s.offset)
  exact Int.ediv_le_ediv (by decide) hnanos

/-- A value that is due is dated at most the wall clock, as long as that is as far ahead as it was
when the instance was made. -/
theorem stamp_le_wall {r : Reading} (hoffset : r.offset = s.offset) (hwall : Word.InRange r.wall)
    {v : Int} (hdue : s.dueAt v ≤ r.monotonic) : s.stamp v * nanosPerMilli ≤ r.wall := by
  have hsum : s.dueAt v + s.offset ≤ r.wall := by
    rw [← hoffset, Reading.offset]
    omega
  have hnanos : Word.satAdd (s.dueAt v) s.offset ≤ r.wall := Word.clamp_le hsum hwall.1
  exact Int.le_trans (Int.ediv_mul_le _ (by decide)) hnanos

/-- What an instance that does not move back hands over is in the order of its event times. -/
theorem added_ordered (hperiod : 0 ≤ s.period) (hstride : 0 < s.stride) (rs : List Reading) :
    (Paced.added s rs).Pairwise fun a b => a.timestamp ≤ b.timestamp := by
  rw [added_eq_progression, progression, List.pairwise_map]
  apply List.pairwise_lt_range.imp
  intro k l hkl
  have hsteps : (k : Int) * s.stride ≤ l * s.stride :=
    Int.mul_le_mul_of_nonneg_right (Int.ofNat_le.mpr (Nat.le_of_lt hkl)) (Int.le_of_lt hstride)
  exact stamp_mono hperiod (Int.add_le_add_left hsteps s.next)

end Stamps

section Create

variable (config : InstanceConfig π) (r : Reading)

/-- No rate, validated or not, makes a negative period. -/
theorem create_period_nonneg : 0 ≤ (create config r).period := by
  apply Int.ediv_nonneg (by decide)
  exact Int.le_trans (by decide) (Int.le_max_right _ 1)

/-- No number of instances stops a new instance from moving on. -/
theorem create_stride_pos : 0 < (create config r).stride :=
  Word.ofCount_pos (Nat.lt_of_lt_of_le Nat.one_pos (Nat.le_max_right _ _))

end Create

end LongStream

/-- **Event times.** An instance of any configuration, made at any reading and polled at any
readings, hands over items in the order of their event times. At every poll at which the wall clock
is as far ahead of the monotonic one as it was when the instance was made, no event time is after
the wall clock. Neither needs a valid rate, and both hold where the start, the instant a value is
due or its event time is stopped at an end of the range. -/
theorem timestamps_ordered_never_ahead (config : InstanceConfig π) (r₀ : Reading)
    (rs : List Reading) :
    let s := LongStream.create config r₀
    ((Paced.added s rs).Pairwise fun a b => a.timestamp ≤ b.timestamp) ∧
      ∀ earlier r later, rs = earlier ++ r :: later → r.offset = r₀.offset →
        Word.InRange r.wall →
        ∀ t ∈ (Paced.poll (Paced.after s earlier) r).added,
          t.timestamp * nanosPerMilli ≤ r.wall := by
  intro s
  constructor
  · exact LongStream.added_ordered (LongStream.create_period_nonneg config r₀)
      (LongStream.create_stride_pos config r₀) rs
  · intro earlier r later _ hoffset hwall t ht
    rw [(s.run_progression earlier).2] at ht
    obtain ⟨hdue, hstamp⟩ := LongStream.mem_poll_added ht
    rw [hstamp]
    exact LongStream.stamp_le_wall hoffset hwall hdue

/-- A start before all instants and a rate below one: the start stops at the first instant, at which
the first value is handed over, dated within the millisecond that has begun. -/
theorem timestamps_ordered_never_ahead_of_first_instant :
    (⟨Word.lowest, Word.lowest⟩ : Reading).offset = (⟨0, 0⟩ : Reading).offset ∧
      Word.InRange Word.lowest ∧
      Paced.added (LongStream.create ⟨Word.lowest, -5, (), 0, 0⟩ ⟨0, 0⟩)
        [⟨Word.lowest, Word.lowest⟩] = [⟨0, -9223372036855⟩] ∧
      -9223372036855 * (nanosPerMilli : Int) ≤ Word.lowest := by
  have hoffset : (⟨Word.lowest, Word.lowest⟩ : Reading).offset = (⟨0, 0⟩ : Reading).offset := by
    decide
  have hwall : Word.InRange Word.lowest := by decide
  have hadded : Paced.added (LongStream.create ⟨Word.lowest, -5, (), 0, 0⟩ ⟨0, 0⟩)
      [⟨Word.lowest, Word.lowest⟩] = [⟨0, -9223372036855⟩] := by rfl
  have hahead := (timestamps_ordered_never_ahead ⟨Word.lowest, -5, (), 0, 0⟩ ⟨0, 0⟩
    [⟨Word.lowest, Word.lowest⟩]).2 [] _ [] rfl hoffset hwall ⟨0, -9223372036855⟩
    (by decide)
  exact ⟨hoffset, hwall, hadded, hahead⟩

end Pacing
